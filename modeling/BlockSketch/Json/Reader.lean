import BlockSketch.Document.Basic

/-!
# Reading JSON

A reader for JSON that also knows the three non-finite numbers.  Of equal keys in an object the last
one counts.  A fault names what was expected and where, counted in characters from the start and in
lines and columns.
-/

namespace BlockSketch.Json

/-- What the reader can stumble on. -/
inductive Problem where
  | expectingValue
  | expectingName
  | expectingColon
  | expectingComma
  | extraData
  | controlCharacter
  | unterminated
  | badEscape
  | badCodeEscape
  | byteOrderMark
  deriving DecidableEq, Repr

namespace Problem

def message : Problem → String
  | expectingValue => "Expecting value"
  | expectingName => "Expecting property name enclosed in double quotes"
  | expectingColon => "Expecting ':' delimiter"
  | expectingComma => "Expecting ',' delimiter"
  | extraData => "Extra data"
  | controlCharacter => "Invalid control character at"
  | unterminated => "Unterminated string starting at"
  | badEscape => "Invalid \\escape"
  | badCodeEscape => "Invalid \\uXXXX escape"
  | byteOrderMark => "Unexpected UTF-8 BOM (decode using utf-8-sig)"

end Problem

/-- The kinds of values that hold other values. -/
inductive Nest where
  | array
  | object
  deriving DecidableEq, Repr

/-- What is said of values that are nested too deeply. -/
def Nest.message : Nest → String
  | array => "maximum recursion depth exceeded while decoding a JSON array from a unicode string"
  | object => "maximum recursion depth exceeded while decoding a JSON object from a unicode string"

/-- How deeply values can be nested. -/
def maxDepth : Nat := 988

/-- Why reading stopped: a problem at the place that is `remaining` characters before the end, a
number that is too long, or a value that is nested too deeply. -/
inductive Stop where
  | problem (what : Problem) (remaining : Nat)
  | numeral (fault : NumeralFault)
  | tooDeep (nest : Nest)
  deriving DecidableEq, Repr

/-- A malformed text: the problem and its offset, line and column. -/
structure Fault where
  problem : Problem
  offset : Nat
  line : Nat
  column : Nat
  deriving DecidableEq, Repr

/-- Why a text is not a document. -/
inductive Error where
  | malformed (fault : Fault)
  | numeral (fault : NumeralFault)
  | tooDeep (nest : Nest)
  deriving DecidableEq, Repr

def Fault.message (f : Fault) : String :=
  s!"{f.problem.message}: line {f.line} column {f.column} (char {f.offset})"

/-- A problem in front of the text `rest`. -/
def fail {α : Type} (what : Problem) (rest : List Char) : Except Stop α :=
  .error (.problem what rest.length)

def isSpace (c : Char) : Bool := c == ' ' || c == '\t' || c == '\n' || c == '\r'

def skipSpace (s : List Char) : List Char := s.dropWhile isSpace

/-- The value of a hexadecimal digit. -/
def hexValue? (c : Char) : Option Nat :=
  if '0' ≤ c && c ≤ '9' then some (c.toNat - 48)
  else if 'a' ≤ c && c ≤ 'f' then some (c.toNat - 87)
  else if 'A' ≤ c && c ≤ 'F' then some (c.toNat - 55)
  else none

/-- The value of four hexadecimal digits at the front of a text. -/
def hexFour? (s : List Char) : Option Nat :=
  if s.length < 4 then none
  else (s.take 4).foldl (fun n? c => do return 16 * (← n?) + (← hexValue? c)) (some 0)

/-- The second half of a pair of code escapes, when one follows, and what follows it. -/
def lowHalf? (s : List Char) : Except Stop (Option (Nat × List Char)) :=
  match s with
  | '\\' :: 'u' :: r =>
    if s.length ≤ 6 then .ok none
    else match hexFour? r with
      | none => fail .badCodeEscape ('u' :: r)
      | some low =>
        if 0xDC00 ≤ low && low ≤ 0xDFFF then .ok (some (low, r.drop 4)) else .ok none
  | _ => .ok none

/-- The character of the code escape whose digits are at the front of `r`, and what follows it.  Two
escapes that halve a character count as one. -/
def codeEscape (r : List Char) : Except Stop (Char × List Char) :=
  if r.length ≤ 4 then fail .badCodeEscape ('u' :: r)
  else match hexFour? r with
    | none => fail .badCodeEscape ('u' :: r)
    | some code =>
      let rest := r.drop 4
      if 0xD800 ≤ code && code ≤ 0xDBFF then
        match lowHalf? rest with
        | .error e => .error e
        | .ok (some (low, rest')) =>
          .ok (Text.charOfCode (0x10000 + (code - 0xD800) * 0x400 + (low - 0xDC00)), rest')
        | .ok none => .ok (Text.charOfCode code, rest)
      else .ok (Text.charOfCode code, rest)

/-- The meaning of a letter after a backslash. -/
def escapeOf? : Char → Option Char
  | '"' => some '"'
  | '\\' => some '\\'
  | '/' => some '/'
  | 'b' => some '\x08'
  | 'f' => some '\x0c'
  | 'n' => some '\n'
  | 'r' => some '\r'
  | 't' => some '\t'
  | _ => none

/-- The rest of a text in quotes that began `opening` characters before the end. -/
def stringBody (opening : Nat) : (fuel : Nat) → List Char → Except Stop (List Char × List Char)
  | 0, _ => .error (.problem .unterminated opening)
  | _, [] => .error (.problem .unterminated opening)
  | fuel + 1, c :: s =>
    if c == '"' then .ok ([], s)
    else if c == '\\' then
      match s with
      | [] => .error (.problem .unterminated opening)
      | 'u' :: r => do
        let (d, rest) ← codeEscape r
        let (ds, rest) ← stringBody opening fuel rest
        return (d :: ds, rest)
      | e :: r =>
        match escapeOf? e with
        | none => fail .badEscape (c :: s)
        | some d => do
          let (ds, rest) ← stringBody opening fuel r
          return (d :: ds, rest)
    else if c.toNat < 0x20 then fail .controlCharacter (c :: s)
    else do
      let (ds, rest) ← stringBody opening fuel s
      return (c :: ds, rest)

/-- A text in quotes, given what follows its opening quote. -/
def string (s : List Char) : Except Stop (String × List Char) := do
  let (cs, rest) ← stringBody (s.length + 1) (s.length + 1) s
  return (String.ofList cs, rest)

def isAsciiDigit (c : Char) : Bool := '0' ≤ c && c ≤ '9'

/-- The digits of the fraction, and what follows; nothing if no digit follows the point. -/
def fraction (s : List Char) : List Char × List Char :=
  match s with
  | '.' :: r =>
    match r.takeWhile isAsciiDigit with
    | [] => ([], s)
    | ds => (ds, r.dropWhile isAsciiDigit)
  | _ => ([], s)

/-- The power of ten, if the text goes on with one, and what follows. -/
def power? (s : List Char) : Option (Int × List Char) :=
  match s with
  | c :: r =>
    if c == 'e' || c == 'E' then
      let (negative, r) := Numeral.splitSign r
      match r.takeWhile isAsciiDigit with
      | [] => none
      | ds => some (Numeral.applySign negative (Text.digitsValue ds), r.dropWhile isAsciiDigit)
    else none
  | [] => none

/-- A number, given whether a minus stood before it: a whole number unless a fraction or a power of
ten follows. -/
def number? (negative : Bool) (s : List Char) : Option (Except Stop (Document × List Char)) :=
  let digits? : Option (List Char × List Char) :=
    match s with
    | '0' :: r => some (['0'], r)
    | _ =>
      match s.takeWhile isAsciiDigit with
      | [] => none
      | ds => some (ds, s.dropWhile isAsciiDigit)
  digits?.map fun (whole, rest) =>
    let (frac, rest) := fraction rest
    match frac, power? rest with
    | [], none =>
      match Numeral.ofDigits whole with
      | .ok n => .ok (.int (Numeral.applySign negative n), rest)
      | .error f => .error (.numeral f)
    | _, power =>
      let (e, rest) := power.getD (0, rest)
      .ok (.float (Double.ofDecimal negative (Text.digitsValue (whole ++ frac)) (e - frac.length)),
        rest)

/-- The words that stand for values, with their values. -/
def words : List (List Char × Document) :=
  [("null".toList, .null), ("true".toList, .bool true), ("false".toList, .bool false),
    ("NaN".toList, .float .nan), ("Infinity".toList, .float (.infinity false)),
    ("-Infinity".toList, .float (.infinity true))]

/-- The value of the word at the front, and what follows it. -/
def word? (s : List Char) : Option (Document × List Char) :=
  words.findSome? fun (w, d) => if w.isPrefixOf s then some (d, s.drop w.length) else none

/-- A value that is no text, list or object. -/
def scalar (s : List Char) : Except Stop (Document × List Char) :=
  match word? s with
  | some found => .ok found
  | none =>
    let (negative, r) := match s with
      | '-' :: r => (true, r)
      | _ => (false, s)
    match number? negative r with
    | some result => result
    | none => fail .expectingValue s

mutual

/-- The value at the front of a text, in which values are nested no deeper than `depth`.  Every call
consumes a character or goes one level down with less fuel, so twice the length of the text is fuel
enough. -/
def value : (fuel depth : Nat) → List Char → Except Stop (Document × List Char)
  | 0, _, s => fail .expectingValue s
  | fuel + 1, depth, s =>
    match s with
    | '"' :: r => do
      let (t, rest) ← string r
      return (.text t, rest)
    | '[' :: r =>
      match depth with
      | 0 => .error (.tooDeep .array)
      | depth + 1 =>
        match skipSpace r with
        | ']' :: rest => .ok (.list [], rest)
        | r => do
          let (items, rest) ← elements fuel depth r
          return (.list items, rest)
    | '\x7b' :: r =>
      match depth with
      | 0 => .error (.tooDeep .object)
      | depth + 1 =>
        match skipSpace r with
        | '\x7d' :: rest => .ok (.map [], rest)
        | r => do
          let (entries, rest) ← members fuel depth r
          return (.map (Document.distinct entries), rest)
    | s => scalar s

/-- The rest of a list, from its next item on. -/
def elements : (fuel depth : Nat) → List Char → Except Stop (List Document × List Char)
  | 0, _, s => fail .expectingValue s
  | fuel + 1, depth, s => do
    let (d, r) ← value fuel depth s
    match skipSpace r with
    | ']' :: rest => return ([d], rest)
    | ',' :: rest => do
      let (ds, rest) ← elements fuel depth (skipSpace rest)
      return (d :: ds, rest)
    | rest => fail .expectingComma rest

/-- The rest of an object, from its next name on. -/
def members : (fuel depth : Nat) → List Char → Except Stop (List (Document × Document) × List Char)
  | 0, _, s => fail .expectingName s
  | fuel + 1, depth, s => do
    match s with
    | '"' :: r => do
      let (name, r) ← string r
      match skipSpace r with
      | ':' :: r => do
        let (d, r) ← value fuel depth (skipSpace r)
        match skipSpace r with
        | '\x7d' :: rest => return ([(.text name, d)], rest)
        | ',' :: rest => do
          let (ds, rest) ← members fuel depth (skipSpace rest)
          return ((.text name, d) :: ds, rest)
        | rest => fail .expectingComma rest
      | rest => fail .expectingColon rest
    | _ => fail .expectingName s

end

/-- The one value of a text, with white space around it. -/
def document (depth : Nat) (s : List Char) : Except Stop Document := do
  if s.head? == some '\uFEFF' then fail .byteOrderMark s
  let (d, rest) ← value (2 * s.length + 2) depth (skipSpace s)
  match skipSpace rest with
  | [] => return d
  | rest => fail .extraData rest

/-- Where a place is, given the text before it. -/
def locate (problem : Problem) (before : List Char) : Fault where
  problem := problem
  offset := before.length
  line := before.count '\n' + 1
  column := (before.reverse.takeWhile (· != '\n')).length + 1

/-- Reads a text in which values are nested no deeper than `depth`. -/
def read (text : String) (depth : Nat := maxDepth) : Except Error Document :=
  let s := text.toList
  match document depth s with
  | .ok d => .ok d
  | .error (.numeral f) => .error (.numeral f)
  | .error (.tooDeep nest) => .error (.tooDeep nest)
  | .error (.problem what remaining) =>
    .error (.malformed (locate what (s.take (s.length - remaining))))

end BlockSketch.Json
