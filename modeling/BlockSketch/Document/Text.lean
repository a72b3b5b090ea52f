import BlockSketch.Document.Basic

/-!
# Texts of documents

How a value is shown inside a message or a field: a text as it is, every other value as a literal, in
which texts are quoted.  A value with a number that is too long in it, or one that is nested too deeply,
cannot be shown.
-/

namespace BlockSketch.Document

/-- One byte inside a byte literal with quote `q`. -/
def byteChar (q : Char) (b : UInt8) : List Char :=
  let c := Char.ofNat b.toNat
  if c == q || c == '\\' then ['\\', c]
  else if c == '\t' then ['\\', 't']
  else if c == '\n' then ['\\', 'n']
  else if c == '\r' then ['\\', 'r']
  else if 32 ≤ b.toNat && b.toNat < 127 then [c]
  else '\\' :: 'x' :: Text.hex 2 b.toNat

def bytesLiteral (b : List UInt8) : List Char :=
  let q := Text.quoteFor (b.map fun x => Char.ofNat x.toNat)
  'b' :: q :: b.flatMap (byteChar q) ++ [q]

/-- The fields of a clock time; seconds and microseconds are left out from the end if zero. -/
def timeFields (t : Instant) : List Nat :=
  [t.hour, t.minute] ++
    (if t.micro ≠ 0 then [t.second, t.micro] else if t.second ≠ 0 then [t.second] else [])

def zoneLiteral : Option Int → String
  | none => ""
  | some 0 => ", tzinfo=datetime.timezone.utc"
  | some o =>
    let days := o.fdiv 86400
    let seconds := o.fmod 86400
    let fields := (if days ≠ 0 then [s!"days={days}"] else []) ++
      (if seconds ≠ 0 then [s!"seconds={seconds}"] else [])
    let delta := ", ".intercalate fields
    s!", tzinfo=datetime.timezone(datetime.timedelta({delta}))"

def dateFields (d : Date) : List Nat := [d.year, d.month, d.day]

def commaNats (ns : List Nat) : String := ", ".intercalate (ns.map toString)

mutual

/-- A value as a literal. -/
def literal : Document → List Char
  | null => "None".toList
  | bool b => (if b then "True" else "False").toList
  | int n => (toString n).toList
  | float x => x.text.toList
  | text s => Text.quotedList s.toList
  | date d => s!"datetime.date({commaNats (dateFields d)})".toList
  | instant t =>
    s!"datetime.datetime({commaNats (dateFields t.date ++ timeFields t)}{zoneLiteral t.offset})".toList
  | bytes b => bytesLiteral b
  | list items => '[' :: literals items ++ [']']
  | map entries => '\x7b' :: entryLiterals entries ++ ['\x7d']
  | row [d] => '(' :: literal d ++ [',', ')']
  | row items => '(' :: literals items ++ [')']
  | keys [] => "set()".toList
  | keys members => '\x7b' :: literals members ++ ['\x7d']
  | again mapping => if mapping then "\x7b...\x7d".toList else "[...]".toList

/-- Literals with commas between them. -/
def literals : List Document → List Char
  | [] => []
  | d :: rest => literal d ++ (if rest.isEmpty then [] else ',' :: ' ' :: literals rest)

/-- Entries of a mapping with commas between them. -/
def entryLiterals : List (Document × Document) → List Char
  | [] => []
  | (k, v) :: rest =>
    literal k ++ ':' :: ' ' :: literal v ++
      (if rest.isEmpty then [] else ',' :: ' ' :: entryLiterals rest)

end

/-- A value as it is shown. -/
def shown : Document → String
  | text s => s
  | date d => d.text
  | instant t => t.text " "
  | d => String.ofList d.literal

@[simp]
theorem shown_text (s : String) : (text s).shown = s := rfl

/-- Why a value cannot be shown. -/
inductive ShowingFault where
  | numeral (fault : NumeralFault)
  | tooDeep
  deriving DecidableEq, Repr

def ShowingFault.message : ShowingFault → String
  | numeral fault => fault.message
  | tooDeep => "maximum recursion depth exceeded while getting the repr of an object"

/-- How deeply values can be nested to be shown. -/
def maxShownDepth : Nat := 985

/-- What keeps a value from being shown when there is room for so many levels. -/
def obstacle? : (room : Nat) → Document → Option ShowingFault
  | 0, _ => some .tooDeep
  | _ + 1, int n =>
    match Numeral.write n with
    | .ok _ => none
    | .error fault => some (.numeral fault)
  | room + 1, list items => items.findSome? (obstacle? room)
  | room + 1, map entries =>
    entries.findSome? fun e => (obstacle? room e.1).or (obstacle? room e.2)
  | room + 1, row items => items.findSome? (obstacle? room)
  | room + 1, keys members => members.findSome? (obstacle? room)
  | _ + 1, _ => none

/-- A value as it is shown, if it can be. -/
def display (d : Document) : Except ShowingFault String :=
  match d.obstacle? maxShownDepth with
  | some fault => .error fault
  | none => .ok d.shown

@[simp]
theorem display_text (s : String) : (text s).display = .ok s := rfl

end BlockSketch.Document
