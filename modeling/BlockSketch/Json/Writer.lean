import BlockSketch.Document.Basic

/-!
# Writing JSON

Layouts on a single line and with an entry per line, with characters beyond ASCII as they are or as
escapes.
-/

namespace BlockSketch.Json

/-- How a document is laid out. -/
structure Layout where
  /-- Spaces per level, one entry a line; `none` for a single line. -/
  indent : Option Nat
  /-- Whether only printable ASCII is written as it is. -/
  asciiOnly : Bool
  /-- Whether a space follows a colon, and a comma that ends no line. -/
  spaced : Bool := true

/-- The escape of a code of four digits. -/
def codeEscapeOf (n : Nat) : List Char := '\\' :: 'u' :: Text.hex 4 n

/-- One character inside quotes. -/
def stringChar (asciiOnly : Bool) (c : Char) : List Char :=
  let n := Text.codeOf c
  if c == '"' || c == '\\' then ['\\', c]
  else if c == '\n' then ['\\', 'n']
  else if c == '\r' then ['\\', 'r']
  else if c == '\t' then ['\\', 't']
  else if n == 8 then ['\\', 'b']
  else if n == 12 then ['\\', 'f']
  else if n < 0x20 then codeEscapeOf n
  else if asciiOnly && 0x7f ≤ n then
    if n < 0x10000 then codeEscapeOf n
    else codeEscapeOf (0xD800 + (n - 0x10000) / 0x400) ++
      codeEscapeOf (0xDC00 + (n - 0x10000) % 0x400)
  else [c]

/-- A text in quotes. -/
def stringText (asciiOnly : Bool) (s : String) : List Char :=
  '"' :: s.toList.flatMap (stringChar asciiOnly) ++ ['"']

def floatText : Double → String
  | .nan => "NaN"
  | .infinity negative => if negative then "-Infinity" else "Infinity"
  | x => x.text

/-- A scalar; as a key of an object it stands between quotes. -/
def scalarText (layout : Layout) : Document → List Char
  | .null => "null".toList
  | .bool b => (if b then "true" else "false").toList
  | .int n => (toString n).toList
  | .float x => (floatText x).toList
  | .text s => stringText layout.asciiOnly s
  | _ => []

def keyText (layout : Layout) (d : Document) : List Char :=
  match d with
  | .text s => stringText layout.asciiOnly s
  | d => '"' :: scalarText layout d ++ ['"']

/-- The break before an item at a level. -/
def breakTo (layout : Layout) (level : Nat) : List Char :=
  match layout.indent with
  | none => []
  | some n => '\n' :: List.replicate (n * level) ' '

/-- What stands between two items at a level. -/
def separator (layout : Layout) (level : Nat) : List Char :=
  match layout.indent with
  | none => if layout.spaced then [',', ' '] else [',']
  | some _ => ',' :: breakTo layout level

/-- What stands between a key and its value. -/
def colon (layout : Layout) : List Char := if layout.spaced then [':', ' '] else [':']

mutual

/-- A document whose items stand at `level + 1`. -/
def render (layout : Layout) (level : Nat) : Document → List Char
  | .list [] => ['[', ']']
  | .map [] => ['\x7b', '\x7d']
  | .list (d :: ds) =>
    '[' :: breakTo layout (level + 1) ++ render layout (level + 1) d ++
      renderItems layout (level + 1) ds ++ breakTo layout level ++ [']']
  | .map ((k, d) :: es) =>
    '\x7b' :: breakTo layout (level + 1) ++ keyText layout k ++ colon layout ++
      render layout (level + 1) d ++ renderEntries layout (level + 1) es ++
      breakTo layout level ++ ['\x7d']
  | d => scalarText layout d

/-- Further items, each after a separator. -/
def renderItems (layout : Layout) (level : Nat) : List Document → List Char
  | [] => []
  | d :: ds => separator layout level ++ render layout level d ++ renderItems layout level ds

/-- Further entries, each after a separator. -/
def renderEntries (layout : Layout) (level : Nat) : List (Document × Document) → List Char
  | [] => []
  | (k, d) :: es =>
    separator layout level ++ keyText layout k ++ colon layout ++ render layout level d ++
      renderEntries layout level es

end

mutual

/-- Whether some whole number in the document is too long to be written. -/
def hasLongNumber : Document → Bool
  | .int n => powerOfTen Numeral.maxDigits ≤ n.natAbs
  | .list ds => anyLongNumber ds
  | .map es => entryLongNumber es
  | _ => false

def anyLongNumber : List Document → Bool
  | [] => false
  | d :: ds => hasLongNumber d || anyLongNumber ds

def entryLongNumber : List (Document × Document) → Bool
  | [] => false
  | (_, d) :: es => hasLongNumber d || entryLongNumber es

end

/-- The document on a single line. -/
def line : Layout where
  indent := none
  asciiOnly := true

/-- The document on a single line without spaces and all characters as they are. -/
def compact : Layout where
  indent := none
  asciiOnly := false
  spaced := false

/-- The document with an entry a line and all characters as they are. -/
def indented : Layout where
  indent := some 2
  asciiOnly := false

/-- The document with an entry a line in ASCII. -/
def indentedAscii : Layout where
  indent := some 2
  asciiOnly := true

/-- The text of a document, whatever the length of its numbers. -/
def textOf (layout : Layout) (d : Document) : String := String.ofList (render layout 0 d)

/-- Writes a document, unless one of its numbers is too long. -/
def write (layout : Layout) (d : Document) : Except NumeralFault String :=
  if hasLongNumber d then .error .tooLong else .ok (textOf layout d)

end BlockSketch.Json
