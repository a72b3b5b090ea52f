import BlockSketch.Clock
import BlockSketch.Number.Numeral
import BlockSketch.Number.Shortest

/-!
# Documents

Values of the data formats that projects and settings are written in.  The entries of a mapping keep
their order and have distinct keys.
-/

namespace BlockSketch

/-- A value read from a document. -/
inductive Document where
  | null
  | bool (value : Bool)
  | int (value : Int)
  | float (value : Double)
  | text (value : String)
  | date (value : Date)
  | instant (value : Instant)
  | bytes (value : List UInt8)
  | list (items : List Document)
  | map (entries : List (Document × Document))
  /-- A row of fixed length. -/
  | row (items : List Document)
  /-- Keys without values. -/
  | keys (members : List Document)
  /-- A list or a mapping that stands inside itself, where it is met again. -/
  | again (mapping : Bool)
  deriving Inhabited

namespace Document

/-- A mapping with text keys. -/
def object (fields : List (String × Document)) : Document :=
  .map (fields.map fun (k, v) => (.text k, v))

/-- A list of texts. -/
def texts (ts : List String) : Document := .list (ts.map .text)

/-- A list of natural numbers. -/
def naturals (ns : List Nat) : Document := .list (ns.map fun (n : Nat) => .int n)

/-- Whether a key is the given text. -/
def isKey (key : String) : Document → Bool
  | text k => k == key
  | _ => false

/-- The value under a text key in a list of entries. -/
def lookup (key : String) : List (Document × Document) → Option Document
  | [] => none
  | (k, v) :: rest => if k.isKey key then some v else lookup key rest

/-- The value under a text key, if the document is a mapping and has the key. -/
def get? (key : String) : Document → Option Document
  | map entries => lookup key entries
  | _ => none

/-- The value under a text key, `null` if there is none. -/
def get (d : Document) (key : String) : Document := (d.get? key).getD .null

/-- Whether a value counts as present: not `null`, false, zero or empty. -/
def truthy : Document → Bool
  | null => false
  | bool b => b
  | int n => n != 0
  | float x => !x.isZero
  | text s => !s.isEmpty
  | date _ => true
  | instant _ => true
  | bytes b => !b.isEmpty
  | list xs => !xs.isEmpty
  | map es => !es.isEmpty
  | row xs => !xs.isEmpty
  | keys xs => !xs.isEmpty
  | again _ => true

/-- The first value if it counts as present, else the second. -/
def orElse (d e : Document) : Document := if d.truthy then d else e

/-- The name of the kind of value, as messages give it. -/
def kindName : Document → String
  | null => "NoneType"
  | bool _ => "bool"
  | int _ => "int"
  | float _ => "float"
  | text _ => "str"
  | date _ => "datetime.date"
  | instant _ => "datetime.datetime"
  | bytes _ => "bytes"
  | list _ => "list"
  | map _ => "dict"
  | row _ => "tuple"
  | keys _ => "set"
  | again mapping => if mapping then "dict" else "list"

/-- Whether two mapping keys are the same key: numbers and truth values by their amount. -/
def sameKey : Document → Document → Bool
  | null, null => true
  | bool a, bool b => a == b
  | bool a, int n => (if a then 1 else 0) == n
  | int n, bool a => (if a then 1 else 0) == n
  | int a, int b => a == b
  | int a, float x => x.isWhole && x.truncate? == some a
  | float x, int a => x.isWhole && x.truncate? == some a
  | float x, float y => x != .nan && (x == y || (x.isZero && y.isZero))
  | bool a, float x => x.isWhole && x.truncate? == some (if a then 1 else 0)
  | float x, bool a => x.isWhole && x.truncate? == some (if a then 1 else 0)
  | text a, text b => a == b
  | date a, date b => a == b
  | instant a, instant b => a.isSame b
  | bytes a, bytes b => a == b
  | _, _ => false

/-- Sets the value of a key: in place if the key is there, else at the end. -/
def insert (key value : Document) : List (Document × Document) → List (Document × Document)
  | [] => [(key, value)]
  | (k, v) :: rest => if k.sameKey key then (k, value) :: rest else (k, v) :: insert key value rest

/-- The entries in order, the last value of each key standing at the key's first place. -/
def distinct (entries : List (Document × Document)) : List (Document × Document) :=
  entries.foldl (fun es (k, v) => insert k v es) []

@[simp]
theorem get?_object_nil (key : String) : (object []).get? key = none := rfl

theorem get?_object_cons (key k : String) (v : Document) (fields : List (String × Document)) :
    (object ((k, v) :: fields)).get? key =
      if k = key then some v else (object fields).get? key := by
  simp [object, get?, lookup, isKey]

end Document

end BlockSketch
