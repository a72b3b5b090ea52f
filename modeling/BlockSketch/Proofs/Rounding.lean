import BlockSketch.Number.Double
import Mathlib.Algebra.Order.Ring.Int
import Mathlib.Tactic.Linarith
import Mathlib.Tactic.Ring

/-! # Rounding in units

Every finite double is a whole number of units of `2 ^ -1074`, the least positive double. Counted in
units, an operation rounds to 53 significant bits and does nothing else, and how a number is written as
a ratio does not matter.
-/

namespace BlockSketch

theorem powerOfTwo_add (m n : Nat) : powerOfTwo (m + n) = powerOfTwo m * powerOfTwo n :=
  Nat.pow_add 2 m n

theorem powerOfTwo_zero : powerOfTwo 0 = 1 := rfl

theorem powerOfTwo_le {m n : Nat} (h : m ≤ n) : powerOfTwo m ≤ powerOfTwo n :=
  Nat.pow_le_pow_right (by decide) h

theorem powerOfTwo_mul_eq {i j k : Nat} (h : j + i = k) :
    powerOfTwo j * powerOfTwo i = powerOfTwo k := by rw [← powerOfTwo_add, h]

theorem log2_eq_iff {n k : Nat} (h : n ≠ 0) :
    n.log2 = k ↔ powerOfTwo k ≤ n ∧ n < powerOfTwo (k + 1) := Nat.log2_eq_iff h

theorem log2_eq_of_lt {n k : Nat} (hl : powerOfTwo k ≤ n) (hu : n < powerOfTwo (k + 1)) :
    n.log2 = k := (log2_eq_iff ((powerOfTwo_pos k).trans_le hl).ne').mpr ⟨hl, hu⟩

namespace Double

variable {num den a b c d k : Nat} {e : Int}

/-! ## Quotients -/

theorem div_congr (hb : 0 < b) (hd : 0 < d) (h : a * d = c * b) : a / b = c / d := by
  rw [← Nat.mul_div_mul_right a b hd, h, Nat.mul_comm b d, Nat.mul_div_mul_right c d hb]

theorem roundDiv_mul_right (hc : 0 < c) : roundDiv (a * c) (b * c) = roundDiv a b := by
  have hm (x y : Nat) : 2 * (x * c) < y * c ↔ 2 * x < y := by
    rw [← Nat.mul_assoc]
    exact Nat.mul_lt_mul_right hc
  have hm' (x y : Nat) : y * c < 2 * (x * c) ↔ y < 2 * x := by
    rw [← Nat.mul_assoc]
    exact Nat.mul_lt_mul_right hc
  simp only [roundDiv, Nat.mul_div_mul_right a b hc, Nat.mul_mod_mul_right, hm, hm']

theorem roundDiv_congr (hb : 0 < b) (hd : 0 < d) (h : a * d = c * b) :
    roundDiv a b = roundDiv c d := by
  rw [← roundDiv_mul_right hd, h, Nat.mul_comm b d, roundDiv_mul_right hb]

/-- The quotient with 53 significant bits that is nearest, from the middle the even one. -/
def nearest (num den : Nat) : Nat :=
  let i := (num / den).log2 - 52
  roundDiv num (den * powerOfTwo i) * powerOfTwo i

theorem nearest_congr (hb : 0 < b) (hd : 0 < d) (h : a * d = c * b) : nearest a b = nearest c d := by
  rw [nearest, nearest, div_congr hb hd h]
  refine congrArg (· * _) (roundDiv_congr ?_ ?_ ?_)
  · exact Nat.mul_pos hb (powerOfTwo_pos _)
  · exact Nat.mul_pos hd (powerOfTwo_pos _)
  · rw [← Nat.mul_assoc, h, ← Nat.mul_assoc]

/-! ## Exponents -/

/-- The number of units in one: a unit is `2 ^ -1074`. -/
@[irreducible] def unit : Nat := powerOfTwo 1074

theorem unit_eq : unit = powerOfTwo 1074 := by
  unfold unit
  rfl

theorem unit_pos : 0 < unit := by
  rw [unit_eq]
  exact powerOfTwo_pos 1074

theorem powerOfTwo_eq_mul_unit (k : Nat) {i : Nat} (h : i = k + 1074) :
    powerOfTwo i = powerOfTwo k * unit := by rw [h, powerOfTwo_add, unit_eq]

theorem unit_eq_mul (k : Nat) {i : Nat} (h : k + i = 1074) : unit = powerOfTwo k * powerOfTwo i := by
  rw [unit_eq, ← h, powerOfTwo_add]

theorem powerOfTwo_dvd_unit {i : Nat} (h : i ≤ 1074) : powerOfTwo i ∣ unit := by
  obtain ⟨k, hk⟩ := Nat.exists_eq_add_of_le' h
  rw [unit_eq_mul k hk.symm]
  exact Nat.dvd_mul_left _ _

/-- The binary exponent of a quotient, as those of its two numbers tell it but for one. -/
def shortBy (num den : Nat) : Nat := if den * powerOfTwo num.log2 ≤ num * powerOfTwo den.log2 then 0 else 1

theorem shortBy_spec (hn : num ≠ 0) (hd : den ≠ 0) :
    den * powerOfTwo num.log2 ≤ num * powerOfTwo (den.log2 + shortBy num den) ∧
      num * powerOfTwo (den.log2 + shortBy num den) < den * powerOfTwo (num.log2 + 1) := by
  obtain ⟨hnl, hnu⟩ := (log2_eq_iff hn).mp rfl
  obtain ⟨hdl, hdu⟩ := (log2_eq_iff hd).mp rfl
  unfold shortBy
  split
  · next h =>
    refine ⟨h, ?_⟩
    calc num * powerOfTwo den.log2 < powerOfTwo (num.log2 + 1) * powerOfTwo den.log2 :=
          Nat.mul_lt_mul_of_pos_right hnu (powerOfTwo_pos _)
      _ ≤ powerOfTwo (num.log2 + 1) * den := Nat.mul_le_mul_left _ hdl
      _ = den * powerOfTwo (num.log2 + 1) := Nat.mul_comm _ _
  · next h =>
    constructor
    · calc den * powerOfTwo num.log2 ≤ powerOfTwo (den.log2 + 1) * num :=
            Nat.mul_le_mul hdu.le hnl
        _ = num * powerOfTwo (den.log2 + 1) := Nat.mul_comm _ _
    · rw [powerOfTwo_succ, powerOfTwo_succ, ← Nat.mul_assoc, ← Nat.mul_assoc]
      exact Nat.mul_lt_mul_of_pos_right (Nat.not_le.mp h) (by decide)

theorem log2_div_eq (hn : num ≠ 0) (hd : den ≠ 0) (k : Nat) :
    (num * powerOfTwo k / den).log2 = num.log2 + k - (den.log2 + shortBy num den) := by
  obtain ⟨lower, upper⟩ := shortBy_spec hn hd
  have pos : 0 < den := Nat.pos_of_ne_zero hd
  generalize den.log2 + shortBy num den = r at lower upper ⊢
  generalize num.log2 = l at lower upper ⊢
  by_cases h : r ≤ l + k
  · obtain ⟨x, hx⟩ := Nat.exists_eq_add_of_le' h
    have two := powerOfTwo_pos r
    have low : powerOfTwo x * den ≤ num * powerOfTwo k := by
      refine Nat.le_of_mul_le_mul_right ?_ two
      calc powerOfTwo x * den * powerOfTwo r = den * powerOfTwo l * powerOfTwo k := by
            rw [Nat.mul_right_comm, ← powerOfTwo_add, ← hx, powerOfTwo_add]; ring
        _ ≤ num * powerOfTwo r * powerOfTwo k := Nat.mul_le_mul_right _ lower
        _ = num * powerOfTwo k * powerOfTwo r := Nat.mul_right_comm _ _ _
    have high : num * powerOfTwo k < powerOfTwo (x + 1) * den := by
      refine Nat.lt_of_mul_lt_mul_right (a := powerOfTwo r) ?_
      calc num * powerOfTwo k * powerOfTwo r = num * powerOfTwo r * powerOfTwo k :=
            Nat.mul_right_comm _ _ _
        _ < den * powerOfTwo (l + 1) * powerOfTwo k :=
            Nat.mul_lt_mul_of_pos_right upper (powerOfTwo_pos k)
        _ = powerOfTwo (x + 1) * den * powerOfTwo r := by
            rw [powerOfTwo_succ, powerOfTwo_succ, Nat.mul_right_comm (_ * 2) den,
              Nat.mul_right_comm _ 2 (powerOfTwo r), ← powerOfTwo_add, ← hx, powerOfTwo_add]; ring
    have first : powerOfTwo x ≤ num * powerOfTwo k / den := (Nat.le_div_iff_mul_le pos).mpr low
    rw [log2_eq_of_lt first ((Nat.div_lt_iff_lt_mul pos).mpr high)]
    omega
  · have small : num * powerOfTwo k < den := by
      refine Nat.lt_of_mul_lt_mul_right (a := powerOfTwo (l + 1)) ?_
      calc num * powerOfTwo k * powerOfTwo (l + 1) = num * powerOfTwo (l + 1 + k) := by
            rw [powerOfTwo_add (l + 1), Nat.mul_comm (powerOfTwo (l + 1)), Nat.mul_assoc]
        _ ≤ num * powerOfTwo r := Nat.mul_le_mul_left _ (powerOfTwo_le (by omega))
        _ < den * powerOfTwo (l + 1) := upper
    rw [Nat.div_eq_of_lt small, Nat.log2_zero]
    omega

/-- Powers of two on both sides of a comparison can be taken together. -/
theorem reaches_iff (num den : Nat) (m n : Nat) :
    (if (0 : Int) ≤ (m : Int) - n then decide (den * powerOfTwo ((m : Int) - n).toNat ≤ num)
      else decide (den ≤ num * powerOfTwo (-((m : Int) - n)).toNat)) =
      decide (den * powerOfTwo m ≤ num * powerOfTwo n) := by
  rcases Nat.le_total n m with h | h
  · obtain ⟨x, rfl⟩ := Nat.exists_eq_add_of_le' h
    have gap : ((x + n : Nat) : Int) - n = x := by omega
    rw [gap, if_pos (Int.natCast_nonneg x), Int.toNat_natCast, powerOfTwo_add, ← Nat.mul_assoc]
    exact decide_eq_decide.mpr (Nat.mul_le_mul_right_iff (powerOfTwo_pos n)).symm
  · obtain ⟨x, rfl⟩ := Nat.exists_eq_add_of_le' h
    have gap : (m : Int) - (x + m : Nat) = -x := by omega
    rw [gap, powerOfTwo_add, ← Nat.mul_assoc]
    cases x with
    | zero => simp [powerOfTwo]
    | succ x =>
      rw [if_neg (by omega), Int.neg_neg, Int.toNat_natCast]
      exact decide_eq_decide.mpr (Nat.mul_le_mul_right_iff (powerOfTwo_pos m)).symm

/-- The exponent leaves 52 bits after the first one, or is the least one. -/
theorem exponentFor_eq (hn : num ≠ 0) (hd : den ≠ 0) :
    exponentFor num den = (((num * unit / den).log2 - 52 : Nat) : Int) - 1074 := by
  rw [unit_eq, log2_div_eq hn hd, exponentFor, shortBy]
  simp only [reaches_iff, minExponent, decide_eq_true_eq]
  split <;> omega

/-! ## Numbers of units -/

def signed (negative : Bool) (k : Nat) : Int := if negative then -k else k

theorem signed_natAbs (n : Int) : signed (n < 0) n.natAbs = n := by
  by_cases h : n < 0
  · simp only [signed, h, decide_true, if_true]
    omega
  · simp only [signed, h, decide_false, Bool.false_eq_true, if_false]
    omega

@[simp] theorem natAbs_signed (negative : Bool) (k : Nat) : (signed negative k).natAbs = k := by
  cases negative
  · exact Int.natAbs_natCast k
  · exact Int.natAbs_neg k

theorem signed_zero (negative : Bool) : signed negative 0 = 0 := by
  cases negative <;> rfl

theorem signed_pred (n : Int) : signed (n < 0) (n.natAbs - 1) = n - n.sign := by
  rcases Int.lt_trichotomy n 0 with h | h | h
  · rw [Int.sign_eq_neg_one_of_neg h, decide_eq_true h, signed, if_pos rfl]
    omega
  · rw [h]
    rfl
  · rw [Int.sign_eq_one_of_pos h, decide_eq_false (by omega), signed, if_neg (by simp)]
    omega

theorem signed_tdiv (negative : Bool) (a d : Nat) :
    (signed negative a).tdiv d = signed negative (a / d) := by
  cases negative
  · rfl
  · exact Int.neg_tdiv _ _

/-- The number is so many units of `2 ^ -1074`. -/
def Counts (x : Double) (k : Int) : Prop :=
  ∃ a b, x.value? = some (a, b) ∧ 0 < b ∧ a * unit = k * b

theorem ratio_eq (m i : Nat) : 0 < (ratio m ((i : Int) - 1074)).2 ∧
    (ratio m ((i : Int) - 1074)).1 * unit =
      m * powerOfTwo i * (ratio m ((i : Int) - 1074)).2 := by
  rw [unit_eq]
  rcases Nat.le_total 1074 i with h | h
  · obtain ⟨x, rfl⟩ := Nat.exists_eq_add_of_le' h
    have exponent : ((x + 1074 : Nat) : Int) - 1074 = x := by omega
    rw [exponent, ratio, if_pos (Int.natCast_nonneg x), Int.toNat_natCast, powerOfTwo_add,
      Nat.mul_one, Nat.mul_assoc]
    exact ⟨Nat.one_pos, rfl⟩
  · obtain ⟨x, hx⟩ := Nat.exists_eq_add_of_le' h
    have exponent : (i : Int) - 1074 = -x := by omega
    rw [exponent, hx, powerOfTwo_add, ratio]
    cases x with
    | zero => simp [powerOfTwo]
    | succ x =>
      rw [if_neg (by omega), Int.neg_neg, Int.toNat_natCast, Nat.mul_assoc,
        Nat.mul_comm (powerOfTwo i)]
      exact ⟨powerOfTwo_pos _, rfl⟩

theorem counts_finite (negative : Bool) (m i : Nat) :
    Counts (finite negative m ((i : Int) - 1074)) (signed negative (m * powerOfTwo i)) := by
  obtain ⟨hd, he⟩ := ratio_eq m i
  refine ⟨_, _, rfl, hd, ?_⟩
  have he := congrArg (Nat.cast (R := Int)) he
  rw [Nat.cast_mul, Nat.cast_mul] at he
  cases negative
  · exact he
  · simp only [signed, if_true, Int.neg_mul]
    exact congrArg Neg.neg he

theorem roundScaled_eq (num i : Nat) (hd : 0 < den) :
    roundScaled num den ((i : Int) - 1074) =
      roundDiv (num * unit) (den * powerOfTwo i) := by
  rw [unit_eq]
  have scaled (k : Nat) : 0 < den * powerOfTwo k := Nat.mul_pos hd (powerOfTwo_pos k)
  rcases Nat.le_total 1074 i with h | h
  · obtain ⟨x, rfl⟩ := Nat.exists_eq_add_of_le' h
    have exponent : ((x + 1074 : Nat) : Int) - 1074 = x := by omega
    rw [exponent, roundScaled, if_pos (Int.natCast_nonneg x), Int.toNat_natCast]
    refine roundDiv_congr (scaled x) (scaled _) ?_
    rw [powerOfTwo_add]
    ring
  · obtain ⟨x, hx⟩ := Nat.exists_eq_add_of_le' h
    have exponent : (i : Int) - 1074 = -x := by omega
    rw [exponent, hx, powerOfTwo_add, roundScaled]
    cases x with
    | zero =>
      obtain rfl : i = 1074 := by omega
      rw [if_pos (by omega)]
      refine roundDiv_congr (scaled _) (scaled _) ?_
      simp only [powerOfTwo_zero, Int.toNat_zero, Nat.cast_zero, Int.neg_zero]
      ring
    | succ x =>
      rw [if_neg (by omega), Int.neg_neg, Int.toNat_natCast]
      refine roundDiv_congr hd (scaled i) ?_
      ring

theorem ofRatio_eq (negative : Bool) {m : Nat} (hn : num ≠ 0) (he : exponentFor num den = e)
    (hm : roundScaled num den e = m) (hl : e < maxExponent) :
    ofRatio negative num den = if m = powerOfTwo 53 then finite negative (powerOfTwo 52) (e + 1)
      else finite negative m e := by
  rw [ofRatio, if_neg hn, he]
  dsimp only
  rw [hm]
  split
  · exact if_neg (by omega)
  · exact if_neg (by omega)

/-- A number that is not too large is rounded to 53 significant bits. -/
theorem counts_ofRatio (negative : Bool) (hd : 0 < den)
    (h : (num * unit / den).log2 ≤ 2000) :
    Counts (ofRatio negative num den) (signed negative (nearest (num * unit) den)) := by
  by_cases hn : num = 0
  · have zero : nearest (num * unit) den = 0 * powerOfTwo 0 := by
      simp [hn, nearest, roundDiv]
    rw [zero, ofRatio, if_pos hn]
    exact counts_finite negative 0 0
  · have bound : (num * unit / den).log2 - 52 ≤ 1948 := Nat.sub_le_sub_right h 52
    have exponent := exponentFor_eq hn hd.ne'
    rw [nearest]
    generalize (num * unit / den).log2 - 52 = i at bound exponent ⊢
    have fits : (i : Int) - 1074 < maxExponent := by
      rw [maxExponent]
      omega
    rw [ofRatio_eq negative hn exponent (roundScaled_eq num i hd) fits]
    split
    · next hm =>
      -- the carry makes one more bit, and the last one is dropped
      have next : (i : Int) - 1074 + 1 = ((i + 1 : Nat) : Int) - 1074 := by omega
      have same : powerOfTwo 53 * powerOfTwo i = powerOfTwo 52 * powerOfTwo (i + 1) := by
        rw [← powerOfTwo_add, ← powerOfTwo_add]
        exact congrArg powerOfTwo (by omega)
      rw [hm, same, next]
      exact counts_finite negative _ _
    · exact counts_finite negative _ _

/-! ## Operations -/

/-- A quotient of whole numbers with 53 significant bits, from the middle the even one. -/
def rounded (num : Int) (den : Nat) : Int := signed (num < 0) (nearest num.natAbs den)

theorem mul_natCast_neg_iff {n : Int} (hd : 0 < d) : n * d < 0 ↔ n < 0 := by
  rw [← Int.not_le, Int.mul_nonneg_iff_of_pos_right (Int.natCast_pos.mpr hd), Int.not_le]

theorem rounded_congr {a c : Int} (hb : 0 < b) (hd : 0 < d) (h : a * d = c * b) :
    rounded a b = rounded c d := by
  have sign : a < 0 ↔ c < 0 := by rw [← mul_natCast_neg_iff hd, h, mul_natCast_neg_iff hb]
  have size : a.natAbs * d = c.natAbs * b := by
    simpa [Int.natAbs_mul] using congrArg Int.natAbs h
  rw [rounded, rounded, nearest_congr hb hd size, decide_eq_decide.mpr sign]

theorem natAbs_units (n : Int) : (n * unit).natAbs = n.natAbs * unit := by
  rw [Int.natAbs_mul, Int.natAbs_natCast]

theorem counts_ofIntRatio {n : Int} (hd : 0 < den)
    (h : (n.natAbs * unit / den).log2 ≤ 2000) :
    Counts (ofIntRatio n den) (rounded (n * unit) den) := by
  rw [rounded, natAbs_units, decide_eq_decide.mpr (mul_natCast_neg_iff unit_pos)]
  exact counts_ofRatio _ hd h

/-- However a number of units is written as a ratio, it is rounded in the same way. -/
theorem counts_round {a u : Int} (hb : 0 < b) (h : a * unit = u * b)
    (hl : u.natAbs.log2 ≤ 2000) : Counts (ofIntRatio a b) (rounded u 1) := by
  have size : a.natAbs * unit = u.natAbs * b := by
    rw [← natAbs_units, h, Int.natAbs_mul, Int.natAbs_natCast]
  have same : rounded (a * unit) b = rounded u 1 :=
    rounded_congr hb Nat.one_pos (by rw [h, Nat.cast_one, Int.mul_one])
  rw [← same]
  refine counts_ofIntRatio hb ?_
  rwa [size, Nat.mul_div_cancel _ hb]

variable {x y : Double} {u v : Int}

theorem counts_scale (hx : Counts x u) (n : Int) (hl : (u * n).natAbs.log2 ≤ 2000) :
    ∃ y, x.scale? n = some y ∧ Counts y (rounded (u * n) 1) := by
  obtain ⟨a, b, hv, hb, he⟩ := hx
  refine ⟨ofIntRatio (a * n) b, by rw [scale?, hv]; rfl, counts_round hb ?_ hl⟩
  rw [Int.mul_right_comm, he, Int.mul_right_comm]

theorem counts_add (hx : Counts x u) (hy : Counts y v) (hl : (u + v).natAbs.log2 ≤ 2000) :
    ∃ z, x.add? y = some z ∧ Counts z (rounded (u + v) 1) := by
  obtain ⟨a, b, hv, hb, he⟩ := hx
  obtain ⟨c, d, hw, hd, hf⟩ := hy
  refine ⟨ofIntRatio (a * d + c * b) (b * d), by rw [add?, hv, hw]; rfl, ?_⟩
  refine counts_round (Nat.mul_pos hb hd) ?_ hl
  calc (a * d + c * b) * unit = a * unit * d + c * unit * b := by ring
    _ = (u + v) * (b * d : Nat) := by rw [he, hf, Nat.cast_mul]; ring

theorem truncate?_of_counts (hx : Counts x u) : x.truncate? = some (u.tdiv unit) := by
  obtain ⟨a, b, hv, hb, he⟩ := hx
  rw [truncate?, hv, Option.map_some]
  have two : (0 : Int) < unit := Int.natCast_pos.mpr unit_pos
  refine congrArg some ?_
  calc a.tdiv b = (a * unit).tdiv (b * unit) :=
        (Int.mul_tdiv_mul_of_pos_left a b two).symm
    _ = (u * b).tdiv (unit * b) := by rw [he, Int.mul_comm (b : Int)]
    _ = u.tdiv unit := Int.mul_tdiv_mul_of_pos_left u _ (Int.natCast_pos.mpr hb)

/-! ## Scales -/

theorem log2_mul_powerOfTwo (ha : a ≠ 0) (i : Nat) : (a * powerOfTwo i).log2 = a.log2 + i := by
  obtain ⟨lower, upper⟩ := (log2_eq_iff ha).mp rfl
  refine log2_eq_of_lt ?_ ?_
  · rw [powerOfTwo_add]
    exact Nat.mul_le_mul_right _ lower
  · rw [Nat.add_right_comm, powerOfTwo_add]
    exact Nat.mul_lt_mul_of_pos_right upper (powerOfTwo_pos i)

/-- Where a quotient has 53 bits, it is rounded to the nearest whole number, and so at every scale. -/
theorem nearest_mul_powerOfTwo (hd : 0 < den) (hl : den * powerOfTwo 52 ≤ num)
    (hu : num < den * powerOfTwo 53) (i : Nat) :
    nearest (num * powerOfTwo i) den = roundDiv num den * powerOfTwo i := by
  have pos := powerOfTwo_pos i
  have lower : powerOfTwo (52 + i) ≤ num * powerOfTwo i / den := by
    rw [Nat.le_div_iff_mul_le hd, powerOfTwo_add, Nat.mul_right_comm, Nat.mul_comm _ den]
    exact Nat.mul_le_mul_right _ hl
  have upper : num * powerOfTwo i / den < powerOfTwo (52 + i + 1) := by
    rw [Nat.div_lt_iff_lt_mul hd, Nat.add_right_comm, powerOfTwo_add, Nat.mul_right_comm,
      Nat.mul_comm _ den]
    exact Nat.mul_lt_mul_of_pos_right hu pos
  rw [nearest, log2_eq_of_lt lower upper, Nat.add_sub_cancel_left, roundDiv_mul_right pos]

/-! ## Errors -/

theorem log2_le_of_lt (h : a < powerOfTwo (k + 1)) : a.log2 ≤ k := by
  by_cases ha : a = 0
  · rw [ha, Nat.log2_zero]
    exact Nat.zero_le k
  · exact Nat.le_of_lt_succ ((Nat.log2_lt ha).mpr h)

/-- The last bit of a small number is small. -/
theorem last_le (h : a < powerOfTwo (k + 53)) : a.log2 - 52 ≤ k :=
  Nat.sub_le_iff_le_add.mpr (log2_le_of_lt h)

/-- Rounding changes a number by at most half a unit of its last bit. -/
theorem nearest_close (num : Nat) (hd : 0 < den) :
    2 * (nearest num den * den) ≤ 2 * num + den * powerOfTwo ((num / den).log2 - 52) ∧
      2 * num ≤ 2 * (nearest num den * den) + den * powerOfTwo ((num / den).log2 - 52) := by
  rw [nearest]
  generalize powerOfTwo ((num / den).log2 - 52) = x, powerOfTwo_pos ((num / den).log2 - 52) = hx
  rw [Nat.mul_assoc, Nat.mul_comm x]
  exact roundDiv_close (Nat.mul_pos hd hx)

theorem rounded_close (u : Int) (hd : 0 < den) :
    2 * (rounded u den * den - u).natAbs ≤ den * powerOfTwo ((u.natAbs / den).log2 - 52) := by
  obtain ⟨lower, upper⟩ := nearest_close u.natAbs hd
  generalize powerOfTwo ((u.natAbs / den).log2 - 52) = x at lower upper ⊢
  rw [rounded]
  by_cases hu : u < 0
  · simp only [signed, hu, decide_true, if_true, Int.neg_mul]
    omega
  · simp only [signed, hu, decide_false, Bool.false_eq_true, if_false]
    omega

/-- The error of a number below `2 ^ k` is at most `2 ^ (k - 54)`. -/
theorem error_le (k : Nat) (u : Int) (hd : 0 < den) (h : u.natAbs < den * (powerOfTwo k * unit)) :
    18014398509481984 * (rounded u den * den - u).natAbs ≤ den * (powerOfTwo k * unit) := by
  have below : u.natAbs / den < powerOfTwo (k + 1021 + 53) := by
    rw [powerOfTwo_eq_mul_unit k (by omega)]
    exact Nat.div_lt_of_lt_mul h
  have last : powerOfTwo (k + 1021) * 9007199254740992 = powerOfTwo k * unit := by
    rw [← powerOfTwo_eq_mul_unit (i := k + 1021 + 53) k (by omega)]
    exact (powerOfTwo_add (k + 1021) 53).symm
  have close := rounded_close u hd
  have bound := Nat.mul_le_mul_left den (powerOfTwo_le (last_le below))
  rw [← last]
  generalize powerOfTwo (k + 1021) = x at bound ⊢
  rw [← Nat.mul_assoc]
  omega

/-- A whole number with fewer bits is not changed. -/
theorem nearest_eq_self (h : powerOfTwo (a.log2 - 52) ∣ a) : nearest a 1 = a := by
  obtain ⟨q, hq⟩ := h
  rw [nearest, Nat.div_one, Nat.one_mul]
  generalize a.log2 - 52 = i at hq ⊢
  have whole : roundDiv a (powerOfTwo i) = q := by
    have pos := powerOfTwo_pos i
    rw [hq, roundDiv, Nat.mul_div_cancel_left q pos, Nat.mul_mod_right]
    exact if_pos pos
  rw [whole, hq, Nat.mul_comm]

theorem div_le_roundDiv (num den : Nat) : num / den ≤ roundDiv num den := by
  unfold roundDiv
  dsimp only
  split
  · exact le_rfl
  · split
    · exact Nat.le_succ _
    · split
      · exact le_rfl
      · exact Nat.le_succ _

/-- A quotient that is at most one half below an even number is not rounded below it. -/
theorem le_roundDiv {q : Nat} (hd : 0 < den) (hq : q % 2 = 0)
    (h : 2 * (q * den) ≤ 2 * num + den) : q ≤ roundDiv num den := by
  have whole : num / den * den + num % den = num := Nat.div_add_mod' num den
  have small : num % den < den := Nat.mod_lt num hd
  rcases Nat.lt_or_ge (num / den) q with hlt | hge
  · -- no more than one is missing, and then the middle goes up
    have next : q = num / den + 1 := by
      refine le_antisymm (Nat.le_of_not_lt fun far => ?_) hlt
      have := Nat.mul_le_mul_right den (Nat.succ_le_of_lt far)
      rw [Nat.succ_mul, Nat.succ_mul] at this
      omega
    have half : den ≤ 2 * (num % den) := by
      rw [next, Nat.succ_mul (num / den)] at h
      omega
    rw [roundDiv, if_neg (Nat.not_lt.mpr half), ← next]
    split
    · exact le_rfl
    · split
      · omega
      · exact le_rfl
  · exact hge.trans (div_le_roundDiv num den)

/-- Rounding does not pass a number that has at least one bit less, even from half a unit of the last
bit below it. -/
theorem le_nearest_iff (h : powerOfTwo (a.log2 - 52 + 1) ∣ b) :
    b ≤ nearest a 1 ↔ 2 * b ≤ 2 * a + powerOfTwo (a.log2 - 52) := by
  constructor
  · intro hb
    have close := (nearest_close a Nat.one_pos).1
    rw [Nat.div_one, Nat.mul_one, Nat.one_mul] at close
    omega
  · intro hb
    obtain ⟨q, rfl⟩ := h
    rw [nearest, Nat.div_one, Nat.one_mul]
    generalize a.log2 - 52 = i at hb ⊢
    have regroup : powerOfTwo (i + 1) * q = 2 * q * powerOfTwo i := by rw [powerOfTwo_succ]; ring
    rw [regroup] at hb ⊢
    exact Nat.mul_le_mul_right _ (le_roundDiv (powerOfTwo_pos i) (Nat.mul_mod_right 2 q) hb)

end Double

end BlockSketch
