import BlockSketch.Yaml.Error

/-!
# Cursors

The rest of a text and the place where it starts, and small readers that move a cursor on.
-/

namespace BlockSketch.Yaml

/-- A place in a text with all that follows it. -/
structure Cursor where
  rest : List Char
  /-- The length of the whole text. -/
  size : Nat
  index : Nat := 0
  line : Nat := 0
  column : Nat := 0

/-- The start of a text. -/
def Cursor.start (s : List Char) : Cursor := { rest := s, size := s.length }

/-- Whether a character ends a line.  Carriage returns are taken to be replaced before. -/
def isBreak (c : Char) : Bool :=
  c == '\n' || c == '\x85' || c == '\u2028' || c == '\u2029'

/-- Whether a character ends a line or the text. -/
def isEnd (c : Char) : Bool := c == '\x00' || isBreak c

/-- Whether a character is a space or ends a line or the text. -/
def isGap (c : Char) : Bool := c == ' ' || isEnd c

/-- Whether a character is a space or a tab or ends a line or the text. -/
def isGapOrTab (c : Char) : Bool := c == '\t' || isGap c

/-- Whether a character may stand in a name. -/
def isNameChar (c : Char) : Bool := c.isAlphanum || c == '-' || c == '_'

namespace Cursor

def mark (c : Cursor) : Mark := ⟨c.index, c.line, c.column⟩

/-- The character `n` places on; a null character at the end. -/
def peek (c : Cursor) (n : Nat := 0) : Char := (c.rest.drop n).headD '\x00'

/-- One character on.  A byte order mark takes no column. -/
def step (c : Cursor) : Cursor :=
  match c.rest with
  | [] => c
  | x :: rest =>
    if isBreak x then { c with rest := rest, index := c.index + 1, line := c.line + 1, column := 0 }
    else
      { c with
        rest := rest, index := c.index + 1
        column := if x == '\uFEFF' then c.column else c.column + 1 }

/-- So many characters on. -/
def advance (c : Cursor) : Nat → Cursor
  | 0 => c
  | n + 1 => c.step.advance n

/-- The characters up to the first that fails the test. -/
def span (c : Cursor) (p : Char → Bool) : List Char := c.rest.takeWhile p

end Cursor

/-- A reader that moves a cursor on or stops at a fault. -/
abbrev Scan := StateT Cursor (Except Error)

namespace Scan

def mark : Scan Mark := return (← get).mark

def peek (n : Nat := 0) : Scan Char := return (← get).peek n

def advance (n : Nat) : Scan Unit := modify (·.advance n)

def step : Scan Unit := modify (·.step)

/-- The characters up to the first that fails the test, which the cursor moves to. -/
def takeWhile (p : Char → Bool) : Scan (List Char) := do
  let s := (← get).span p
  advance s.length
  return s

def skipWhile (p : Char → Bool) : Scan Unit := do
  let _ ← takeWhile p

/-- Stops with a problem at the cursor. -/
def fail {α : Type} (context : Context) (since : Mark) (problem : Problem) : Scan α := do
  throw (.malformed ⟨some context, some since, problem, ← mark⟩)

/-- Stops unless the next character passes the test. -/
def need (p : Char → Bool) (context : Context) (since : Mark) (problem : Char → Problem) :
    Scan Unit := do
  let c ← peek
  if !p c then fail context since (problem c)

/-- Moves over the end of a line, if the cursor is at one: line feeds for all but the two separators,
which stay as they are. -/
def lineBreak : Scan (List Char) := do
  let c ← peek
  if !isBreak c then return []
  step
  return [if c == '\x85' then '\n' else c]

/-- Moves over spaces and a comment. -/
def comment : Scan Unit := do
  skipWhile (· == ' ')
  if (← peek) == '#' then skipWhile (!isEnd ·)

/-- Moves over the rest of a line, which may only hold a comment. -/
def ignoredLine (context : Context) (since : Mark) : Scan Unit := do
  comment
  need isEnd context since .notLineEnd
  let _ ← lineBreak

/-- Whether a document marker such as `---` stands at the cursor. -/
def atMarker (marker : Char) : Scan Bool := do
  let c ← get
  return c.peek 0 == marker && c.peek 1 == marker && c.peek 2 == marker && isGapOrTab (c.peek 3)

/-- Whether either document marker stands at the cursor. -/
def atSeparator : Scan Bool := do return (← atMarker '-') || (← atMarker '.')

end Scan

end BlockSketch.Yaml
