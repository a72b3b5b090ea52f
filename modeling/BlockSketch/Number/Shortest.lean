import BlockSketch.Number.Double

/-!
# Shortest decimals

The fewest decimal digits that read back as a given number, and of those the nearest ones.
-/

namespace BlockSketch.Double

/-- A positive number `0.d₁d₂… · 10 ^ point`. -/
structure Decimal where
  digits : List Char
  point : Int
  deriving DecidableEq, Repr

/-- The least `j`, counted from `start`, for which `num * 10 ^ j` reaches `den`. -/
def leadingZeros (num den : Nat) : (fuel start : Nat) → Nat
  | 0, start => start
  | fuel + 1, start =>
    if den ≤ num * powerOfTen start then start else leadingZeros num den fuel (start + 1)

/-- The place of the decimal point of `num / den`: the least `p` with `num / den < 10 ^ p`. -/
def pointOf (num den : Nat) : Int :=
  if den ≤ num then ((Nat.toDigits 10 (num / den)).length : Int)
  else 1 - (leadingZeros num den 400 1 : Int)

/-- `num / den` divided by `10 ^ k`, as numerator and denominator. -/
def shiftDecimal (num den : Nat) (k : Int) : Nat × Nat :=
  if 0 ≤ k then (num, den * powerOfTen k.toNat) else (num * powerOfTen (-k).toNat, den)

/-- Numbers that round to the same double: bounds in quarters of a unit of the last place. -/
structure Interval where
  lower : Nat
  upper : Nat
  closed : Bool

/-- The numbers that round to `m · 2 ^ e`.  Below a power of two the spacing halves. -/
def intervalOf (m : Nat) (e : Int) : Interval where
  lower := if m = powerOfTwo 52 && minExponent < e then 4 * m - 1 else 4 * m - 2
  upper := 4 * m + 2
  closed := m % 2 == 0

/-- Whether `a / b` lies in the interval, both in quarters of a unit. -/
def Interval.holds (i : Interval) (a b : Nat) : Bool :=
  if i.closed then i.lower * b ≤ a && a ≤ i.upper * b else i.lower * b < a && a < i.upper * b

/-- The decimal with last place `10 ^ k` that lies nearest to `m · 2 ^ e` and reads back as it; of two
that are equally near the even one. -/
def onGrid? (m : Nat) (e k : Int) : Option Nat :=
  let (num, den) := ratio m e
  let (n, d) := shiftDecimal num den k
  let down := n / d
  let (qn, qd) := ratio 1 (e - 2)
  let readsBack (c : Nat) : Bool :=
    let (cn, cd) := if 0 ≤ k then (c * powerOfTen k.toNat, 1) else (c, powerOfTen (-k).toNat)
    c != 0 && (intervalOf m e).holds (cn * qd) (cd * qn)
  let up := down + 1
  match readsBack down, readsBack up with
  | true, true => some (roundDiv n d)
  | true, false => some down
  | false, true => some up
  | false, false => none

/-- Tries decimals of `count`, `count + 1`, … digits. -/
def shortestFrom (m : Nat) (e point : Int) : (fuel : Nat) → (count : Nat) → Nat × Int
  | 0, _ => (m, 0)
  | fuel + 1, count =>
    match onGrid? m e (point - count) with
    | some c => (c, point - count)
    | none => shortestFrom m e point fuel (count + 1)

/-- The shortest decimal of `m · 2 ^ e`, for positive `m`.  Seventeen digits always suffice. -/
def shortest (m : Nat) (e : Int) : Decimal :=
  let (num, den) := ratio m e
  let (c, k) := shortestFrom m e (pointOf num den) 18 1
  let ds := Nat.toDigits 10 c
  ⟨(ds.reverse.dropWhile (· == '0')).reverse, ds.length + k⟩

/-- Positional form when the point lies within the first sixteen digits or at most three zeros
before them, else one digit before the point and an exponent of at least two digits. -/
def Decimal.text (d : Decimal) : List Char :=
  let n : Int := d.digits.length
  if -4 < d.point && d.point ≤ 0 then
    '0' :: '.' :: List.replicate (-d.point).toNat '0' ++ d.digits
  else if 0 < d.point && d.point ≤ 16 then
    if n ≤ d.point then d.digits ++ List.replicate (d.point - n).toNat '0' ++ ['.', '0']
    else d.digits.take d.point.toNat ++ '.' :: d.digits.drop d.point.toNat
  else
    let e := d.point - 1
    let es := Nat.toDigits 10 e.natAbs
    d.digits.take 1 ++ (if n = 1 then [] else '.' :: d.digits.drop 1) ++
      'e' :: (if e < 0 then '-' else '+') :: List.replicate (2 - es.length) '0' ++ es

/-- The text of a number: the shortest decimal that reads back. -/
def text : Double → String
  | nan => "nan"
  | infinity negative => if negative then "-inf" else "inf"
  | finite negative m e =>
    let body := if m = 0 then ['0', '.', '0'] else (shortest m e).text
    String.ofList (if negative then '-' :: body else body)

end BlockSketch.Double
