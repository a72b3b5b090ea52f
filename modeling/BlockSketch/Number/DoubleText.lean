import BlockSketch.Number.Double
import BlockSketch.Number.Numeral

/-!
# Doubles in text

Numbers with a point or a power of ten, and the words for infinity and for what is no number, in any
letter case.
-/

namespace BlockSketch.Double

open Numeral

def isAsciiDigit (c : Char) : Bool := '0' ≤ c && c ≤ '9'

/-- The value of ASCII digits. -/
def natOf (digits : List Char) : Nat := digits.foldl (fun n c => 10 * n + (c.toNat - 48)) 0

/-- The power of ten at the end of a number; none is the power zero. -/
def power? (s : List Char) : Option Int :=
  match s with
  | [] => some 0
  | e :: r =>
    let (negative, digits) := splitSign r
    if (e == 'e' || e == 'E') && !digits.isEmpty && digits.all isAsciiDigit then
      some (applySign negative (natOf digits))
    else none

/-- The double nearest to a decimal without a sign, with the sign given. -/
def ofDecimalText? (negative : Bool) (s : List Char) : Option Double :=
  let whole := s.takeWhile isAsciiDigit
  let rest := s.dropWhile isAsciiDigit
  let (fraction, rest) := match rest with
    | '.' :: r => (r.takeWhile isAsciiDigit, r.dropWhile isAsciiDigit)
    | r => ([], r)
  if whole.isEmpty && fraction.isEmpty then none
  else (power? rest).map fun e => ofDecimal negative (natOf (whole ++ fraction)) (e - fraction.length)

/-- The words for numbers that are not finite. -/
def ofWord? (negative : Bool) (s : List Char) : Option Double :=
  match String.ofList (s.map Char.toLower) with
  | "inf" => some (infinity negative)
  | "infinity" => some (infinity negative)
  | "nan" => some nan
  | _ => none

/-- Reads a number with blanks around it. -/
def ofText? (s : List Char) : Option Double :=
  let front := (s.map asciiForm).dropWhile isAsciiMargin
  let (negative, body) := splitSign (front.reverse.dropWhile isAsciiMargin).reverse
  (ofWord? negative body).or (ofDecimalText? negative body)

end BlockSketch.Double
