import BlockSketch.Number.Power

/-!
# Binary floating point, exactly

Numbers of 53 significant bits as pairs of natural numbers and exponents of two.  Every operation is
exact on rationals and rounds once, to the nearest number and from the middle to the even one.
-/

namespace BlockSketch

/-- A double-precision number: `finite s m e` is `± m · 2 ^ e`, with `m < 2 ^ 53`. -/
inductive Double where
  | nan
  | infinity (negative : Bool)
  | finite (negative : Bool) (mantissa : Nat) (exponent : Int)
  deriving DecidableEq, Repr, Inhabited

namespace Double

/-- The least exponent of a number. -/
def minExponent : Int := -1074

/-- The greatest exponent of a number. -/
def maxExponent : Int := 971

/-- The quotient rounded to the nearest whole number, from the middle to the even one. -/
def roundDiv (num den : Nat) : Nat :=
  let q := num / den
  let r := num % den
  if 2 * r < den then q
  else if den < 2 * r then q + 1
  else if q % 2 = 0 then q
  else q + 1

/-- The quotient of `num` by `den * 2 ^ e`, rounded. -/
def roundScaled (num den : Nat) (e : Int) : Nat :=
  if 0 ≤ e then roundDiv num (den * powerOfTwo e.toNat) else roundDiv (num * powerOfTwo (-e).toNat) den

/-- The exponent at which the quotient has 53 bits before the point, or the least one. -/
def exponentFor (num den : Nat) : Int :=
  let gap : Int := (Nat.log2 num : Int) - Nat.log2 den
  let reaches : Bool :=
    if 0 ≤ gap then den * powerOfTwo gap.toNat ≤ num else den ≤ num * powerOfTwo (-gap).toNat
  max minExponent (gap - (if reaches then 52 else 53))

/-- The number nearest to `± num / den`. -/
def ofRatio (negative : Bool) (num den : Nat) : Double :=
  if num = 0 then finite negative 0 minExponent
  else
    let e := exponentFor num den
    let m := roundScaled num den e
    let (m, e) := if m = powerOfTwo 53 then (powerOfTwo 52, e + 1) else (m, e)
    if maxExponent < e then infinity negative else finite negative m e

/-- The number nearest to `± digits · 10 ^ e`.  Exponents beyond the range are decided by size alone,
so that no huge power is formed. -/
def ofDecimal (negative : Bool) (digits : Nat) (e : Int) : Double :=
  let size : Int := (Nat.toDigits 10 digits).length + e
  if digits = 0 || size < -400 then finite negative 0 minExponent
  else if 400 < size then infinity negative
  else if 0 ≤ e then ofRatio negative (digits * powerOfTen e.toNat) 1
  else ofRatio negative digits (powerOfTen (-e).toNat)

/-- The number nearest to `n / den`. -/
def ofIntRatio (n : Int) (den : Nat) : Double := ofRatio (n < 0) n.natAbs den

/-- The number nearest to `n`. -/
def ofInt (n : Int) : Double := ofIntRatio n 1

/-- Numerator and denominator of `m · 2 ^ e`. -/
def ratio (m : Nat) (e : Int) : Nat × Nat :=
  if 0 ≤ e then (m * powerOfTwo e.toNat, 1) else (m, powerOfTwo (-e).toNat)

/-- The exact value of a finite number, as a signed numerator and a denominator. -/
def value? : Double → Option (Int × Nat)
  | finite negative m e =>
    let (num, den) := ratio m e
    some (if negative then -(num : Int) else num, den)
  | _ => none

/-- The rounded sum of two finite numbers; `none` if one of them is not finite. -/
def add? (x y : Double) : Option Double := do
  let (a, b) ← x.value?
  let (c, d) ← y.value?
  return ofIntRatio (a * d + c * b) (b * d)

/-- The rounded product of a finite number and a whole one. -/
def scale? (k : Int) (x : Double) : Option Double := do
  let (a, b) ← x.value?
  return ofIntRatio (a * k) b

/-- The number with the other sign. -/
def negate : Double → Double
  | nan => nan
  | infinity negative => infinity !negative
  | finite negative m e => finite (!negative) m e

/-- The rounded sum.  A sum of zero is only negative if both numbers are. -/
def add : Double → Double → Double
  | nan, _ => nan
  | _, nan => nan
  | infinity a, infinity b => if a == b then infinity a else nan
  | infinity a, _ => infinity a
  | _, infinity b => infinity b
  | finite a 0 e, finite b 0 _ => finite (a && b) 0 e
  | x, y => (x.add? y).getD nan

/-- The rounded product. -/
def multiply : Double → Double → Double
  | nan, _ => nan
  | _, nan => nan
  | infinity a, infinity b => infinity (a != b)
  | infinity a, finite b m _ => if m = 0 then nan else infinity (a != b)
  | finite a m _, infinity b => if m = 0 then nan else infinity (a != b)
  | finite a m e, finite b n f =>
    let (p, q) := ratio m e
    let (r, s) := ratio n f
    ofRatio (a != b) (p * r) (q * s)

/-- The whole part of a finite number. -/
def truncate? (x : Double) : Option Int := x.value?.map fun (a, b) => a.tdiv b

/-- Whether a number is zero. -/
def isZero : Double → Bool
  | finite _ m _ => m == 0
  | _ => false

/-- Whether a number is finite and has no fractional part. -/
def isWhole (x : Double) : Bool :=
  match x.value? with
  | some (a, b) => a % (b : Int) == 0
  | none => false

/-- A rounded quotient is within half a unit of the exact one. -/
theorem roundDiv_close {num den : Nat} (h : 0 < den) :
    2 * (roundDiv num den * den) ≤ 2 * num + den ∧ 2 * num ≤ 2 * (roundDiv num den * den) + den := by
  have hm : num / den * den + num % den = num := by
    rw [Nat.mul_comm]; exact Nat.div_add_mod num den
  have hr : num % den < den := Nat.mod_lt _ h
  have hs : (num / den + 1) * den = num / den * den + den := Nat.succ_mul _ _
  unfold roundDiv
  simp only
  split
  · omega
  · split
    · omega
    · split
      · omega
      · omega

end Double

end BlockSketch
