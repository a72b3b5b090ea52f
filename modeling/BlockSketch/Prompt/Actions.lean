import BlockSketch.Pin
import BlockSketch.Prompt.Rule
import BlockSketch.Text.Case

/-!
# Actions of a prompt

A prompt is split into segments, each of which is read in lower case: as a directive to repeat, as an
action, or as nothing that is understood.  A directive waits for the next action and applies to it
alone.
-/

namespace BlockSketch.Prompt

open Text

/-- The characters that end a segment. -/
def isSeparator (c : Char) : Bool := c == ',' || c == '.' || c == ';'

/-- The segments of a prompt: the pieces between separators, trimmed, without the empty ones. -/
def segments (s : List Char) : List (List Char) :=
  ((Pin.pieces isSeparator s).map trim).filter (!·.isEmpty)

/-- What a segment says. -/
inductive Clause where
  /-- The next action is to be repeated. -/
  | directive (count : Nat)
  | action (rule : Rule) (action : Action)
  | unknown

/-- Reads a segment, which is already in lower case.  A directive anywhere in it counts before all
rules. -/
def clause (s : List Char) : Except NumeralFault Clause :=
  match search repeatAt? s with
  | some ds => (Numeral.ofDigits ds).map .directive
  | none => do
    match ← sentence s with
    | some (r, a) => return .action r a
    | none => return .unknown

/-- The clauses of a prompt in order. -/
def clauses (s : List Char) : Except NumeralFault (List Clause) :=
  (segments s).mapM fun t => clause (lower t)

/-- The actions of clauses, given how often the next action is to be done.  A count of one or less
leaves it alone. -/
def assemble (count : Nat) : List Clause → List Action
  | [] => []
  | .directive n :: rest => assemble n rest
  | .unknown :: rest => assemble count rest
  | .action _ a :: rest => (if 1 < count then Action.repeating count a else a) :: assemble 1 rest

/-- The actions of a prompt. -/
def actions (prompt : String) : Except NumeralFault (List Action) :=
  (clauses prompt.toList).map (assemble 1)

end BlockSketch.Prompt
