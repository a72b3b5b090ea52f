import BlockSketch.Service.Schema

/-!
# Endpoints

The addresses of the service, and what a request to one of them asks for once its body is checked.
-/

namespace BlockSketch.Service

/-- An address with a method. -/
inductive Endpoint where
  | health
  | boards
  | components
  | examples
  | parsePins
  | countPins
  | validate
  | parse
  | pseudocode
  | sketch
  deriving DecidableEq, Repr

namespace Endpoint

def all : List Endpoint :=
  [health, boards, components, examples, parsePins, countPins, validate, parse, pseudocode, sketch]

def path : Endpoint → String
  | health => "/health"
  | boards => "/boards"
  | components => "/components"
  | examples => "/examples"
  | parsePins => "/pins/parse"
  | countPins => "/pins/counts"
  | validate => "/validate"
  | parse => "/parse"
  | pseudocode => "/pseudocode"
  | sketch => "/sketch"

/-- Whether the endpoint takes a body. -/
def takesBody : Endpoint → Bool
  | health => false
  | boards => false
  | components => false
  | examples => false
  | _ => true

/-- The only method of the endpoint. -/
def method (e : Endpoint) : String := if e.takesBody then "POST" else "GET"

/-- Whether the endpoint is open to all. -/
def isOpen : Endpoint → Bool
  | health => true
  | _ => false

/-- The endpoint of a path, which may have a line feed at its end. -/
def ofPath? (path : String) : Option Endpoint :=
  all.find? fun e => e.path == path || e.path ++ "\n" == path

theorem ofPath?_path (e : Endpoint) : ofPath? e.path = some e := by cases e <;> decide

end Endpoint

/-- Where a request leads. -/
inductive Routing where
  | endpoint (e : Endpoint)
  | notAllowed
  /-- There would be an endpoint without the slash at the end. -/
  | redirect
  | notFound
  deriving DecidableEq, Repr

/-- The path without the slashes at its end. -/
def withoutSlash (path : String) : String :=
  String.ofList (path.toList.reverse.dropWhile (· == '/')).reverse

/-- Finds where a method and a path lead. -/
def route (method path : String) : Routing :=
  match Endpoint.ofPath? path with
  | some e => if method = e.method then .endpoint e else .notAllowed
  | none =>
    if path.endsWith "/" && (Endpoint.ofPath? (withoutSlash path)).isSome then .redirect
    else .notFound

/-- The components and the board of a request. -/
structure Parts where
  components : List Document
  board : Option String

/-- A prompt with components. -/
structure Prompted where
  prompt : String
  components : List Document

/-- A whole project. -/
structure Draft where
  prompt : String
  components : List Document
  board : Option String

/-- What a request asks for. -/
inductive Task where
  | health
  | boards
  | components
  | examples
  | parsePins (text : String)
  | countPins (parts : Parts)
  | validate (parts : Parts)
  | parse (prompted : Prompted)
  | pseudocode (draft : Draft)
  | sketch (draft : Draft)

namespace Reader

/-- A field of a component record with its value; one that is `null` has none. -/
def entry {α : Type} (reader : Reader α) (write : α → Document) (key : String) :
    Reader (List (String × Document)) :=
  fun place d => (reader place d).map fun a => [(key, write a)]

/-- A text field that is empty if it is not given. -/
def textEntry (key : String) : Reader (List (String × Document)) :=
  defaulted (entry text .text key) [(key, .text "")] [key]

/-- A field that may be `null`, under its name or under its second name. -/
def optionalEntry {α : Type} (reader : Reader α) (write : α → Document) (keys : List String) :
    Reader (List (String × Document)) :=
  defaulted (fun place d => (optional reader place d).map fun a =>
    (a.map fun v => (keys.headD "", write v)).toList) [] keys

/-- The fields of a component record.  The custom ones have a second name each. -/
def componentFields : List (Reader (List (String × Document))) :=
  [textEntry "id",
    required (entry text .text "type") "type",
    textEntry "pins",
    optionalEntry text .text ["label"],
    optionalEntry text .text ["customName", "custom_name"],
    optionalEntry integer .int ["customPinCount", "custom_pin_count"],
    optionalEntry (list text) .texts ["customPinTypes", "custom_pin_types"],
    optionalEntry (list text) .texts ["customBlocks", "custom_blocks"],
    optionalEntry text .text ["customCategory", "custom_category"]]

/-- The record of a component with the fields that have values. -/
def component : Reader Document :=
  mapping fun place d =>
    (Checked.all (componentFields.map fun field => field place d)).map fun entries =>
      Document.object entries.flatten

/-- The records of components. -/
def components : Reader (List Document) := defaulted (list component) [] ["components"]

/-- The name of a board. -/
def board : Reader (Option String) := defaulted (optional text) none ["board"]

def prompt : Reader String := required text "prompt"

def pinText : Reader String := mapping (defaulted text "" ["pins"])

def parts : Reader Parts :=
  mapping fun place d => ((components place d).map Parts.mk).apply (board place d)

def prompted : Reader Prompted :=
  mapping fun place d => ((prompt place d).map Prompted.mk).apply (components place d)

def draft : Reader Draft :=
  mapping fun place d =>
    (((prompt place d).map Draft.mk).apply (components place d)).apply (board place d)

end Reader

/-- Reads a body, which must be there. -/
def readBody {α : Type} (reader : Reader α) (body : Option Document) : Checked α :=
  match body with
  | some d => reader [.field "body"] d
  | none => .flaw .missing [.field "body"] .null

/-- What a request to an endpoint asks for. -/
def Endpoint.task (e : Endpoint) (body : Option Document) : Checked Task :=
  match e with
  | .health => .ok .health
  | .boards => .ok .boards
  | .components => .ok .components
  | .examples => .ok .examples
  | .parsePins => (readBody Reader.pinText body).map .parsePins
  | .countPins => (readBody Reader.parts body).map .countPins
  | .validate => (readBody Reader.parts body).map .validate
  | .parse => (readBody Reader.prompted body).map .parse
  | .pseudocode => (readBody Reader.draft body).map .pseudocode
  | .sketch => (readBody Reader.draft body).map .sketch

end BlockSketch.Service
