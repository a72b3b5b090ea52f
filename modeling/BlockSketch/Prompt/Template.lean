import BlockSketch.Text.Scan

/-!
# Sentence templates

The fixed forms of sentences that prompts are made of.  A template is looked for anywhere in a
sentence and may be followed by other text.  What it finds holds runs of digits as they stand; they
become numbers later.
-/

namespace BlockSketch.Prompt

open Text

/-- A run of one or more digits, and what follows it. -/
def digits? (s : List Char) : Option (List Char × List Char) := run? isDigit s

/-- A word, and what follows it. -/
def word? (s : List Char) : Option (List Char × List Char) := run? isWord s

/-- Blanks and then a word of the template. -/
def blanksThen? (w : String) (s : List Char) : Option (List Char) :=
  blanks? s >>= after? w.toList

/-- What follows an optional part: the text after it if it is there, else the text itself. -/
def skip? (part : List Char → Option (List Char)) (s : List Char) : List Char := (part s).getD s

/-- Units of time in the order in which they are tried, with whether they are seconds. -/
def units : List (List Char × Bool) :=
  [("ms".toList, false), ("millisecond".toList, false), ("second".toList, true)]

/-- Whether the unit at the front of a text is seconds; `none` if there is no unit.  Plural endings
need not be looked at, since any text may follow. -/
def unit? (s : List Char) : Option Bool :=
  units.findSome? fun (w, seconds) => (after? w s).map fun _ => seconds

/-- A duration as it stands in a sentence. -/
structure Span where
  digits : List Char
  seconds : Bool
  deriving DecidableEq, Repr

/-- A duration: digits, optional blanks and a unit. -/
def span? (s : List Char) : Option Span := do
  let (ds, s) ← digits? s
  let seconds ← unit? (s.dropWhile isBlank)
  return ⟨ds, seconds⟩

/-- `pin`, blanks and digits. -/
def pinAfterWord? (s : List Char) : Option (List Char × List Char) :=
  after? "pin".toList s >>= blanks? >>= digits?

/-- Blanks, `on`, blanks, `pin`, blanks and digits. -/
def onPin? (s : List Char) : Option (List Char × List Char) :=
  blanksThen? "on" s >>= blanks? >>= pinAfterWord?

/-- The digits of an optional pin, and what follows it. -/
def optionalPin (s : List Char) : Option (List Char) × List Char :=
  match onPin? s with
  | some (ds, rest) => (some ds, rest)
  | none => (none, s)

/-- `repeat N time`: the digits of the count. -/
def repeatAt? (s : List Char) : Option (List Char) := do
  let (ds, s) ← after? "repeat".toList s >>= blanks? >>= digits?
  let _ ← blanksThen? "time" s
  return ds

/-- What `turn on W` or `turn off W` says. -/
structure Turn where
  on : Bool
  word : List Char
  pin : Option (List Char)
  deriving DecidableEq, Repr

/-- `turn on W` or `turn off W`, with an optional pin. -/
def turnAt? (s : List Char) : Option Turn := do
  let s ← after? "turn".toList s >>= blanks?
  let (on, s) ← match after? "on".toList s with
    | some rest => some (true, rest)
    | none => (after? "off".toList s).map fun rest => (false, rest)
  let (word, s) ← blanks? s >>= word?
  return ⟨on, word, (optionalPin s).1⟩

/-- What `set servo to D degrees` says. -/
structure ServoTurn where
  pin : Option (List Char)
  degrees : List Char
  deriving DecidableEq, Repr

/-- `set servo`, an optional pin, `to D degree`. -/
def servoAt? (s : List Char) : Option ServoTurn := do
  let s ← after? "set".toList s >>= blanksThen? "servo"
  let (pin, s) := optionalPin s
  let (ds, s) ← blanksThen? "to" s >>= blanks? >>= digits?
  let _ ← after? "degree".toList (s.dropWhile isBlank)
  return ⟨pin, ds⟩

/-- What `run motor` says. -/
structure MotorRun where
  pin : Option (List Char)
  span : Option Span
  deriving DecidableEq, Repr

/-- The verbs that start a motor. -/
def motorVerb? (s : List Char) : Option (List Char) :=
  ["spin", "start", "run"].findSome? fun w => after? w.toList s

/-- `spin`, `start` or `run`, optionally `dc`, `motor`, an optional pin and an optional duration. -/
def motorAt? (s : List Char) : Option MotorRun := do
  let s ← motorVerb? s >>= blanks?
  let s := skip? (fun s => after? "dc".toList s >>= blanks?) s
  let s ← after? "motor".toList s
  let (pin, s) := optionalPin s
  return ⟨pin, blanksThen? "for" s >>= blanks? >>= span?⟩

/-- The verbs that wait. -/
def delayVerb? (s : List Char) : Option (List Char) :=
  ["wait", "delay"].findSome? fun w => after? w.toList s

/-- `wait` or `delay`, optionally `for`, and a duration. -/
def delayAt? (s : List Char) : Option Span := do
  let s ← delayVerb? s
  let s := skip? (blanksThen? "for") s
  blanks? s >>= span?

/-- What `read W sensor` says: the sensor and the first pin of its list, which may be empty. -/
structure SensorRead where
  word : List Char
  pin : Option (List Char)
  deriving DecidableEq, Repr

/-- A list of pins: digits and commas.  The digits before its first comma are returned. -/
def sensorPins? (s : List Char) : Option (List Char) := do
  let s ← blanksThen? "on" s >>= blanksThen? "pin"
  let (list, _) ← blanks? (skip? (after? ['s']) s) >>= run? fun c => isDigit c || c == ','
  return list.takeWhile (· != ',')

/-- `read W sensor`, optionally `on pin` or `on pins` and a list of pins. -/
def sensorAt? (s : List Char) : Option SensorRead := do
  let (word, s) ← after? "read".toList s >>= blanks? >>= word?
  let s ← blanksThen? "sensor" s
  return ⟨word, sensorPins? s⟩

/-- Whether a character is a quote, single or double. -/
def isQuote (c : Char) : Bool := c == '\'' || c == '"'

/-- A quote and the text up to the next quote, which must come before the end of the line. -/
def quotedText? : List Char → Option (List Char)
  | [] => none
  | q :: s =>
    if isQuote q then
      let body := s.takeWhile fun c => !isQuote c && c != '\n'
      match s.drop body.length with
      | c :: _ => if isQuote c then some body else none
      | [] => none
    else none

/-- `print`, optionally `text`, and a quoted text. -/
def printAt? (s : List Char) : Option (List Char) := do
  let s ← after? "print".toList s >>= blanks?
  quotedText? (skip? (fun s => after? "text".toList s >>= blanks?) s)

/-- The rest of a line after blanks.  If nothing but blanks is left, the last one that does not break
the line and has a blank before it is the rest. -/
def restOfLine? (s : List Char) : Option (List Char) :=
  match s.takeWhile isBlank, s.dropWhile isBlank with
  | [], _ => none
  | _ :: gap, [] => (gap.reverse.find? (· != '\n')).map fun c => [c]
  | _, rest => some (rest.takeWhile (· != '\n'))

/-- `if` and a condition, which goes to the end of the line. -/
def ifAt? (s : List Char) : Option (List Char) := after? "if".toList s >>= restOfLine?

end BlockSketch.Prompt
