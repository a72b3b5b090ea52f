import BlockSketch.Yaml.Cursor

/-!
# Scalars

The three ways to write a text: plain, between quotes, and as a block of indented lines.  Loops carry
fuel, for which the length of the text is enough since every turn moves on.
-/

namespace BlockSketch.Yaml

open Scan

/-- Fuel for a loop that moves on with every turn. -/
def Scan.fuel : Scan Nat := return (← get).size + 1

/-- Lines that are folded: a single line feed is a space, and of more the first one is left out. -/
def folded (first breaks : List Char) : List Char :=
  (if first != ['\n'] then first else if breaks.isEmpty then [' '] else []) ++ breaks

/-! ## Plain scalars -/

/-- A plain text, and whether the cursor passed the end of a line after it. -/
structure PlainScalar where
  text : List Char
  passedBreak : Bool

/-- The brackets and the comma of flow collections. -/
def isFlowIndicator (c : Char) : Bool := c == ',' || c == '[' || c == ']' || c == '\x7b' || c == '\x7d'

/-- Whether a colon before this character separates a key from its value. -/
def endsKey (flow : Bool) (next : Char) : Bool := isGapOrTab next || (flow && isFlowIndicator next)

/-- The characters of a plain scalar up to the next gap. -/
def plainRun (flow : Bool) : List Char → List Char
  | [] => []
  | c :: rest =>
    if isGapOrTab c || (c == ':' && endsKey flow (rest.headD '\x00')) ||
        (flow && (isFlowIndicator c || c == '?')) then []
    else c :: plainRun flow rest

/-- Further breaks and indentation after the end of a line; `none` if a document marker follows. -/
def plainBreaks : (fuel : Nat) → Scan (Option (List Char))
  | 0 => return some []
  | fuel + 1 => do
    skipWhile (· == ' ')
    if !isBreak (← peek) then return some []
    let first ← lineBreak
    if ← atSeparator then return none
    return (← plainBreaks fuel).map (first ++ ·)

/-- What a gap in a plain scalar stands for, and whether it holds the end of a line. -/
def plainGap : Scan (List Char × Bool) := do
  let spaces ← takeWhile (· == ' ')
  if !isBreak (← peek) then return (spaces, false)
  let first ← lineBreak
  if ← atSeparator then return ([], true)
  match ← plainBreaks (← fuel) with
  | none => return ([], true)
  | some breaks => return (folded first breaks, true)

/-- The rest of a plain scalar after a gap. -/
def plainFrom (flow : Bool) (indent : Int) :
    (fuel : Nat) → (gap : List Char) → (passedBreak : Bool) → Scan PlainScalar
  | 0, _, passedBreak => return ⟨[], passedBreak⟩
  | fuel + 1, gap, passedBreak => do
    let run := plainRun flow (← get).rest
    if (← peek) == '#' || run.isEmpty then return ⟨[], passedBreak⟩
    advance run.length
    let (next, passedBreak) ← plainGap
    let c ← get
    if next.isEmpty || c.peek == '#' || (!flow && (c.column : Int) < indent) then
      return ⟨gap ++ run, passedBreak⟩
    let tail ← plainFrom flow indent fuel next passedBreak
    return { tail with text := gap ++ run ++ tail.text }

/-- A plain scalar, whose further lines are indented by `indent` unless it stands in a flow
collection. -/
def plainScalar (flow : Bool) (indent : Int) : Scan PlainScalar := do
  plainFrom flow indent (← fuel) [] false

/-! ## Quoted scalars -/

/-- Escapes of a single character. -/
def escapes : List (Char × Char) :=
  [('0', '\x00'), ('a', '\x07'), ('b', '\x08'), ('t', '\t'), ('\t', '\t'), ('n', '\n'),
    ('v', '\x0b'), ('f', '\x0c'), ('r', '\r'), ('e', '\x1b'), (' ', ' '), ('"', '"'), ('\\', '\\'),
    ('/', '/'), ('N', '\x85'), ('_', '\xa0'), ('L', '\u2028'), ('P', '\u2029')]

/-- Escapes of a character by its code, with the number of digits. -/
def codeEscapes : List (Char × Nat) := [('x', 2), ('u', 4), ('U', 8)]

/-- The value of a hexadecimal digit. -/
def hexDigit? (c : Char) : Option Nat :=
  if '0' ≤ c && c ≤ '9' then some (c.toNat - 48)
  else if 'a' ≤ c && c ≤ 'f' then some (c.toNat - 87)
  else if 'A' ≤ c && c ≤ 'F' then some (c.toNat - 55)
  else none

/-- The greatest code that is looked at at all. -/
def maxCode : Nat := 0x7FFFFFFF

/-- The character of a code. -/
def charOf (code : Nat) : Except Error Char :=
  if maxCode < code then .error (.value .codeTooLarge)
  else if 0x10FFFF < code then .error (.value .codeOutOfRange)
  else .ok (Text.charOfCode code)

/-- The number that so many hexadecimal digits at the cursor denote; the error is the first character
that is no digit. -/
def hexNumber (c : Cursor) (digits : Nat) : Except Char Nat :=
  let extend (n k : Nat) : Except Char Nat :=
    match hexDigit? (c.peek k) with
    | some d => .ok (16 * n + d)
    | none => .error (c.peek k)
  (List.range digits).foldlM extend 0

/-- Further breaks and blanks in a quoted scalar. -/
def quotedBreaks (since : Mark) : (fuel : Nat) → Scan (List Char)
  | 0 => return []
  | fuel + 1 => do
    if ← atSeparator then fail .quoted since .documentSeparator
    skipWhile fun c => c == ' ' || c == '\t'
    if !isBreak (← peek) then return []
    let first ← lineBreak
    return first ++ (← quotedBreaks since fuel)

/-- What a gap in a quoted scalar stands for. -/
def quotedGap (since : Mark) : Scan (List Char) := do
  let blanks ← takeWhile fun c => c == ' ' || c == '\t'
  let c ← peek
  if c == '\x00' then fail .quoted since .endOfStream
  if !isBreak c then return blanks
  let first ← lineBreak
  return folded first (← quotedBreaks since (← fuel))

/-- What an escape stands for, after its backslash. -/
def escape (since : Mark) : Scan (List Char) := do
  let c ← peek
  if let some d := escapes.lookup c then
    step
    return [d]
  if let some digits := codeEscapes.lookup c then
    step
    match hexNumber (← get) digits with
    | .error found => fail .doubleQuoted since (.notHex digits found)
    | .ok code =>
      let d ← charOf code
      advance digits
      return [d]
  if !isBreak c then fail .doubleQuoted since (.unknownEscape c)
  let _ ← lineBreak
  quotedBreaks since (← fuel)

/-- Whether a character ends a run between quotes. -/
def endsQuotedRun (c : Char) : Bool := c == '\'' || c == '"' || c == '\\' || isGapOrTab c

/-- The text of a quoted scalar up to the next gap or the closing quote. -/
def quotedRun (double : Bool) (since : Mark) : (fuel : Nat) → Scan (List Char)
  | 0 => return []
  | fuel + 1 => do
    let run ← takeWhile (!endsQuotedRun ·)
    let c ← get
    if !double && c.peek == '\'' && c.peek 1 == '\'' then
      advance 2
      return run ++ '\'' :: (← quotedRun double since fuel)
    else if (double && c.peek == '\'') || (!double && (c.peek == '"' || c.peek == '\\')) then
      step
      return run ++ c.peek :: (← quotedRun double since fuel)
    else if double && c.peek == '\\' then
      step
      let meant ← escape since
      return run ++ meant ++ (← quotedRun double since fuel)
    else return run

/-- The rest of a quoted scalar, which ends before the closing quote. -/
def quotedFrom (double : Bool) (since : Mark) : (fuel : Nat) → Scan (List Char)
  | 0 => return []
  | fuel + 1 => do
    let run ← quotedRun double since (← Scan.fuel)
    if (← peek) == (if double then '"' else '\'') then return run
    let gap ← quotedGap since
    return run ++ gap ++ (← quotedFrom double since fuel)

/-- A scalar between quotes. -/
def quotedScalar (double : Bool) : Scan (List Char) := do
  let since ← mark
  step
  let text ← quotedFrom double since (← fuel)
  step
  return text

/-! ## Block scalars -/

/-- What is kept of the line breaks at the end of a block scalar. -/
inductive Chomping where
  | one
  | none
  | all
  deriving DecidableEq, Repr

/-- The sign for chomping, if there is one. -/
def chomping? : Scan (Option Chomping) := do
  match ← peek with
  | '+' => step; return some .all
  | '-' => step; return some .none
  | _ => return Option.none

/-- The digit for indentation, if there is one. -/
def indentation? (since : Mark) : Scan (Option Nat) := do
  let c ← peek
  if c == '0' then fail .blockScalar since .zeroIndentation
  if '1' ≤ c && c ≤ '9' then
    step
    return some (c.toNat - 48)
  return none

/-- The signs after the indicator of a block scalar, in either order. -/
def blockHeader (since : Mark) : Scan (Chomping × Option Nat) := do
  let before ← chomping?
  let indent ← indentation? since
  let after ← if before.isNone && indent.isSome then chomping? else pure none
  need isGap .blockScalar since .notIndicators
  return ((before.or after).getD .one, indent)

/-- Blank lines before the first line of a block, and the widest indentation met. -/
def leadingLines (widest : Nat) : (fuel : Nat) → Scan (List Char × Nat)
  | 0 => return ([], widest)
  | fuel + 1 => do
    let c ← get
    if c.peek == ' ' then
      step
      leadingLines (max widest (c.column + 1)) fuel
    else if isBreak c.peek then
      let first ← lineBreak
      let (breaks, widest) ← leadingLines widest fuel
      return (first ++ breaks, widest)
    else return ([], widest)

/-- Spaces up to an indentation. -/
def skipIndent (indent : Nat) : Scan Unit := do
  let c ← get
  advance (min (indent - c.column) (c.span (· == ' ')).length)

/-- Blank lines of a block whose indentation is known. -/
def blankLines (indent : Nat) : (fuel : Nat) → Scan (List Char)
  | 0 => return []
  | fuel + 1 => do
    skipIndent indent
    if !isBreak (← peek) then return []
    let first ← lineBreak
    return first ++ (← blankLines indent fuel)

/-- The lines of a block: its text, the break after the last line, and the blank lines after that. -/
structure BlockLines where
  text : List Char
  last : List Char
  blanks : List Char

/-- Whether a line of the block starts at the cursor. -/
def atBlockLine (indent : Nat) : Scan Bool := do
  let c ← get
  return c.column == indent && c.peek != '\x00'

def startsBlank (c : Char) : Bool := c == ' ' || c == '\t'

/-- The lines of a block from the blank lines before one of them on. -/
def blockLines (fold : Bool) (indent : Nat) : (fuel : Nat) → (blanks : List Char) → Scan BlockLines
  | 0, blanks => return ⟨[], [], blanks⟩
  | fuel + 1, blanks => do
    if !(← atBlockLine indent) then return ⟨[], [], blanks⟩
    let startsText := !startsBlank (← peek)
    let line ← takeWhile (!isEnd ·)
    let last ← lineBreak
    let next ← blankLines indent (← Scan.fuel)
    if !(← atBlockLine indent) then return ⟨blanks ++ line, last, next⟩
    let joint :=
      if fold && last == ['\n'] && startsText && !startsBlank (← peek) then
        if next.isEmpty then [' '] else []
      else last
    let tail ← blockLines fold indent fuel next
    return { tail with text := blanks ++ line ++ joint ++ tail.text }

/-- A block scalar inside a collection of indentation `outer`. -/
def blockScalar (fold : Bool) (outer : Int) : Scan (List Char) := do
  let since ← mark
  step
  let (chomping, increment) ← blockHeader since
  ignoredLine .blockScalar since
  let least := max 1 (outer + 1).toNat
  let (indent, blanks) ← match increment with
    | some n => do
      let indent := least + n - 1
      pure (indent, ← blankLines indent (← fuel))
    | none => do
      let (blanks, widest) ← leadingLines 0 (← fuel)
      pure (max least widest, blanks)
  let lines ← blockLines fold indent (← fuel) blanks
  return lines.text ++ (if chomping = .none then [] else lines.last) ++
    (if chomping = .all then lines.blanks else [])

end BlockSketch.Yaml
