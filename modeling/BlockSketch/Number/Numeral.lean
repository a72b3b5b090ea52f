import BlockSketch.Number.Power
import BlockSketch.Text.Blank
import BlockSketch.Text.Digit
import BlockSketch.Text.Quoted

/-!
# Whole numbers in text

Numbers have any size, but a decimal numeral may have no more than 4300 digits, both when it is read
and when it is written.
-/

namespace BlockSketch

/-- What can be wrong with a decimal numeral. -/
inductive NumeralFault where
  /-- The text is not a whole number. -/
  | notWhole (text : String)
  /-- The text has more digits than can be read. -/
  | tooManyDigits (digits : Nat)
  /-- The number has more digits than can be written. -/
  | tooLong
  deriving DecidableEq, Repr

namespace Numeral

open Text

/-- The most digits that a numeral may have. -/
def maxDigits : Nat := 4300

/-- Blanks that may stand around a numeral: the information separators may not. -/
def isMargin (c : Char) : Bool := isBlank c && !(28 ≤ c.toNat && c.toNat ≤ 31)

/-- The value of a run of digits. -/
def ofDigits (ds : List Char) : Except NumeralFault Nat :=
  if maxDigits < ds.length then .error (.tooManyDigits ds.length) else .ok (digitsValue ds)

/-- Splits an optional sign off; the flag says whether it is a minus. -/
def splitSign : List Char → Bool × List Char
  | '-' :: s => (true, s)
  | '+' :: s => (false, s)
  | s => (false, s)

def applySign (negative : Bool) (n : Nat) : Int := if negative then -(n : Int) else n

/-- Whether underscores stand only singly and between other characters. -/
def groupsWell : List Char → Bool
  | [] => true
  | ['_'] => false
  | '_' :: '_' :: _ => false
  | _ :: s => groupsWell s

/-- A whole number in decimal: blanks around it, a sign, and single underscores between digits are
allowed.  The digits are counted before the text after them is looked at. -/
def read (text : String) : Except NumeralFault Int :=
  let fault := NumeralFault.notWhole text
  let (negative, s) := splitSign (text.toList.dropWhile isMargin)
  let body := s.takeWhile fun c => isDigit c || c == '_'
  let rest := s.dropWhile fun c => isDigit c || c == '_'
  let digits := body.filter isDigit
  if body.head? == some '_' || !groupsWell body then .error fault
  else match ofDigits digits with
    | .error f => .error f
    | .ok n => if digits.isEmpty || !rest.all isMargin then .error fault else .ok (applySign negative n)

/-- The ASCII form of a character: digits of any script as ASCII digits, blanks beyond ASCII as spaces, and
a question mark for everything else. -/
def asciiForm (c : Char) : Char :=
  if c.toNat < 127 then c
  else if isBlank c then ' '
  else match digitValue? c with
    | some d => Char.ofNat (48 + d)
    | none => '?'

/-- The ASCII blanks that may stand around a number. -/
def isAsciiMargin (c : Char) : Bool := c == ' ' || (9 ≤ c.toNat && c.toNat ≤ 13)

/-- The value of a digit or a letter as a digit. -/
def letterValue? (c : Char) : Option Nat :=
  if '0' ≤ c && c ≤ '9' then some (c.toNat - 48)
  else if 'a' ≤ c && c ≤ 'z' then some (c.toNat - 87)
  else if 'A' ≤ c && c ≤ 'Z' then some (c.toNat - 55)
  else none

/-- The letters that may follow a zero at the front of a number in a base. -/
def baseLetters : Nat → List Char
  | 2 => ['b', 'B']
  | 8 => ['o', 'O']
  | 16 => ['x', 'X']
  | _ => []

/-- The text without the zero and the letter that name its base. -/
def dropBaseLetter (base : Nat) (s : List Char) : List Char :=
  match s with
  | '0' :: c :: r => if (baseLetters base).contains c then r else s
  | _ => s

/-- The number that a text without underscores denotes in a base. -/
def inBase? (base : Nat) (text : String) : Option Int :=
  let digit? (c : Char) : Option Nat := (letterValue? c).filter (· < base)
  let (negative, s) := splitSign ((text.toList.map asciiForm).dropWhile isAsciiMargin)
  let s := dropBaseLetter base s
  let digits := (s.takeWhile fun c => (digit? c).isSome).filterMap digit?
  if digits.isEmpty || !(s.drop digits.length).all isAsciiMargin then none
  else some (applySign negative (digits.foldl (fun n d => base * n + d) 0))

/-- The decimal form of a number, if it is short enough to be written. -/
def write (n : Int) : Except NumeralFault String :=
  if powerOfTen maxDigits ≤ n.natAbs then .error .tooLong else .ok (toString n)

end Numeral

namespace NumeralFault

def message : NumeralFault → String
  | notWhole text =>
    "invalid literal for int() with base 10: " ++ String.ofList ((Text.quotedList text.toList).take 200)
  | tooManyDigits digits =>
    s!"Exceeds the limit (4300 digits) for integer string conversion: value has {digits} digits; " ++
      "use sys.set_int_max_str_digits() to increase the limit"
  | tooLong =>
    "Exceeds the limit (4300 digits) for integer string conversion; " ++
      "use sys.set_int_max_str_digits() to increase the limit"

end NumeralFault

end BlockSketch
