import BlockSketch.Document.Text
import BlockSketch.Json.Reader

/-!
# Schemas

Checking that a document has the fields that a request needs, each with a value of the right form.  All
flaws are found, in the order of the fields.
-/

namespace BlockSketch.Service

/-- What can be wrong with a value. -/
inductive FlawKind where
  | notJson (problem : Json.Problem)
  | missing
  | notText
  /-- A text with half a character in it. -/
  | notUnicode
  | notList
  | notObject
  | notInteger
  | unparsable
  | fractional
  | infinite
  | tooLarge
  deriving DecidableEq, Repr

namespace FlawKind

def id : FlawKind → String
  | notJson _ => "json_invalid"
  | missing => "missing"
  | notText => "string_type"
  | notUnicode => "string_unicode"
  | notList => "list_type"
  | notObject => "model_attributes_type"
  | notInteger => "int_type"
  | unparsable => "int_parsing"
  | fractional => "int_from_float"
  | infinite => "finite_number"
  | tooLarge => "int_parsing_size"

def message : FlawKind → String
  | notJson _ => "JSON decode error"
  | missing => "Field required"
  | notText => "Input should be a valid string"
  | notUnicode => "Input should be a valid string, unable to parse raw data as a unicode string"
  | notList => "Input should be a valid list"
  | notObject => "Input should be a valid dictionary or object to extract fields from"
  | notInteger => "Input should be a valid integer"
  | unparsable => "Input should be a valid integer, unable to parse string as an integer"
  | fractional => "Input should be a valid integer, got a number with a fractional part"
  | infinite => "Input should be a finite number"
  | tooLarge => "Unable to parse input string as an integer, exceeded maximum size"

/-- What else a report says of a flaw. -/
def context : FlawKind → List (String × Document)
  | notJson problem => [("ctx", .object [("error", .text problem.message)])]
  | _ => []

end FlawKind

/-- A step on the way to a value: the name of a field, or a position. -/
inductive PathStep where
  | field (name : String)
  | position (n : Nat)
  deriving DecidableEq, Repr

def PathStep.toDocument : PathStep → Document
  | field name => .text name
  | position n => .int n

/-- A flaw, where it is, and the value that has it. -/
structure Flaw where
  kind : FlawKind
  place : List PathStep
  value : Document

def Flaw.toRecord (f : Flaw) : Document :=
  .object ([("type", .text f.kind.id), ("loc", .list (f.place.map PathStep.toDocument)),
    ("msg", .text f.kind.message), ("input", f.value)] ++ f.kind.context)

/-- A value, or the flaws that keep it from being one. -/
inductive Checked (α : Type) where
  | ok (value : α)
  | flawed (flaws : List Flaw)

namespace Checked

variable {α β : Type}

def map (f : α → β) : Checked α → Checked β
  | ok a => ok (f a)
  | flawed flaws => flawed flaws

/-- Applies a function to a value; the flaws of both add up. -/
def apply : Checked (α → β) → Checked α → Checked β
  | ok f, ok a => ok (f a)
  | ok _, flawed flaws => flawed flaws
  | flawed flaws, ok _ => flawed flaws
  | flawed flaws, flawed more => flawed (flaws ++ more)

/-- A single flaw. -/
def flaw (kind : FlawKind) (place : List PathStep) (value : Document) : Checked α :=
  flawed [⟨kind, place, value⟩]

/-- All values of a list. -/
def all : List (Checked α) → Checked (List α)
  | [] => ok []
  | c :: cs => apply (map List.cons c) (all cs)

end Checked

/-- Reads a value at a place. -/
abbrev Reader (α : Type) := List PathStep → Document → Checked α

namespace Reader

variable {α : Type}

def text : Reader String
  | _, .text s => .ok s
  | place, d => .flaw .notText place d

/-- A list whose items are all read. -/
def list (item : Reader α) : Reader (List α)
  | place, .list ds => .all (ds.mapIdx fun i d => item (place ++ [.position i]) d)
  | place, d => .flaw .notList place d

/-- A value that may be `null`. -/
def optional (reader : Reader α) : Reader (Option α)
  | _, .null => .ok none
  | place, d => (reader place d).map some

/-- The text of a number without zeros in front.  Zeros may have underscores between them, and the last
one stays if a point or nothing follows; `none` if the text cannot be a number. -/
def withoutZeros? : List Char → Option (List Char)
  | [] => none
  | '0' :: s =>
    let isFiller (c : Char) : Bool := c == '0' || c == '_'
    match s.dropWhile isFiller with
    | [] => some [(s.getLast?).getD '0']
    | c :: rest =>
      if c == '-' || ('1' ≤ c && c ≤ '9') then some (c :: rest)
      else if c == '.' then some (((s.takeWhile isFiller).getLast?.getD '0') :: c :: rest)
      else none
  | c :: s => if c == '-' || ('1' ≤ c && c ≤ '9') then some (c :: s) else none

/-- The text of a number without a fraction that has only zeros. -/
def withoutFraction (s : List Char) : List Char :=
  match s.dropWhile (· != '.') with
  | _ :: '0' :: zeros => if zeros.all (· == '0') then s.takeWhile (· != '.') else s
  | _ => s

/-- The text of a number without underscores, which may only stand singly and between other
characters. -/
def withoutUnderscores (s : List Char) : List Char :=
  if s.head? == some '_' || !Numeral.groupsWell s then s else s.filter (· != '_')

/-- The text of a number in its plain form: no blanks around it, no plus, no zeros in front, no fraction
and no underscores. -/
def plainNumeral? (s : List Char) : Option (List Char) :=
  let front := s.dropWhile Numeral.isMargin
  let s := (front.reverse.dropWhile Numeral.isMargin).reverse
  let unsigned? := match s with
    | '+' :: '-' :: _ => none
    | '+' :: s => some s
    | s => some s
  (unsigned? >>= withoutZeros?).map fun s => withoutUnderscores (withoutFraction s)

/-- The longest numeral that is read, with its sign. -/
def maxNumeral : Nat := 4300

/-- The number of a numeral in its plain form, or what is wrong with it. -/
def plainNumber (s : List Char) : Except FlawKind Int :=
  let (negative, digits) := match s with
    | '-' :: s => (true, s)
    | s => (false, s)
  let front := digits.takeWhile Json.isAsciiDigit
  if front.isEmpty || (front.head? == some '0' && 1 < front.length) then .error .unparsable
  else if maxNumeral < front.length + (if negative then 1 else 0) then .error .tooLarge
  else if front.length < digits.length then .error .unparsable
  else .ok (Numeral.applySign negative (Text.digitsValue front))

/-- The bound on the size of numbers that are given with a point. -/
def pointBound : Int := powerOfTwo 63

/-- A whole number, also given as a truth value, as a number with a point or as a numeral. -/
def integer : Reader Int
  | _, .int n => .ok n
  | _, .bool b => .ok (if b then 1 else 0)
  | place, .float x =>
    match x.truncate? with
    | none => .flaw .infinite place (.float x)
    | some n =>
      if !x.isWhole then .flaw .fractional place (.float x)
      else if -pointBound < n && n < pointBound then .ok n
      else .flaw .tooLarge place (.float x)
  | place, .text s =>
    if s.toList.any Text.isHalf then .flaw .notUnicode place (.text s)
    else
      match (plainNumeral? s.toList).map plainNumber with
      | some (.ok n) => .ok n
      | some (.error kind) => .flaw kind place (.text s)
      | none => .flaw .unparsable place (.text s)
  | place, d => .flaw .notInteger place d

end Reader

/-- The value of the first key that a mapping has, with that key. -/
def firstOf (d : Document) : List String → Option (String × Document)
  | [] => none
  | key :: keys =>
    match d.get? key with
    | some v => some (key, v)
    | none => firstOf d keys

/-- A field that must be there. -/
def required {α : Type} (reader : Reader α) (key : String) : Reader α := fun place d =>
  match d.get? key with
  | some v => reader (place ++ [.field key]) v
  | none => .flaw .missing (place ++ [.field key]) d

/-- A field that has a default, under any of its names. -/
def defaulted {α : Type} (reader : Reader α) (default : α) (keys : List String) : Reader α :=
  fun place d =>
    match firstOf d keys with
    | some (key, v) => reader (place ++ [.field key]) v
    | none => .ok default

/-- Reads the fields of a mapping. -/
def mapping {α : Type} (fields : Reader α) : Reader α
  | place, .map es => fields place (.map es)
  | place, d => .flaw .notObject place d

mutual

/-- Whether all numbers in a document are finite. -/
def isFinite : Document → Bool
  | .float x => x.truncate?.isSome
  | .list ds => allFinite ds
  | .map es => entriesFinite es
  | _ => true

def allFinite : List Document → Bool
  | [] => true
  | d :: ds => isFinite d && allFinite ds

def entriesFinite : List (Document × Document) → Bool
  | [] => true
  | (_, d) :: es => isFinite d && entriesFinite es

end

/-- Whether a report on flaws, which repeats their values, can be written. -/
def reportable (flaws : List Flaw) : Bool := flaws.all fun f => isFinite f.value

end BlockSketch.Service
