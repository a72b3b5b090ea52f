import BlockSketch.Clock
import BlockSketch.Proofs.Rounding

/-! # Millisecond stamps

The stamp of an instant is a double that was rounded two or three times and then cut off. For whole
milliseconds it is never too large, and at most one too small; it is one too small if a thousand times
the timestamp, before it is rounded, lies below the milliseconds by more than half of its last bit.
Where the offset is known, a remainder of the milliseconds tells it, and no double has to be looked at.
-/

namespace BlockSketch

/-! ## Bounds -/

namespace Date

theorem daysInMonth_le (year month : Nat) : daysInMonth year month ≤ 31 := by
  unfold daysInMonth
  repeat' split
  all_goals decide

theorem daysBeforeMonth_le (year month : Nat) : daysBeforeMonth year month ≤ 31 * (month - 1) := by
  unfold daysBeforeMonth
  induction month - 1 with
  | zero => exact Nat.zero_le _
  | succ count ih =>
    have := daysInMonth_le year (count + 1)
    rw [List.range_succ, List.foldl_append, List.foldl_cons, List.foldl_nil]
    omega

theorem epochDay_bounds {d : Date} (h : d.isValid = true) :
    -719163 ≤ d.epochDay ∧ d.epochDay ≤ 2932903 := by
  simp only [isValid, Bool.and_eq_true, decide_eq_true_eq] at h
  obtain ⟨⟨⟨⟨⟨hy, hy'⟩, hm⟩, hm'⟩, hd⟩, hd'⟩ := h
  have days := daysInMonth_le d.year d.month
  have months := daysBeforeMonth_le d.year d.month
  rw [epochDay, daysBeforeYear]
  omega

end Date

namespace Instant

open Double

variable {t u : Instant} {m n : Int}

/-- A reading of the clock: the day exists, the time is one of a day, and the offset is less than a
day. -/
structure Valid (t : Instant) : Prop where
  date : t.date.isValid = true
  hour : t.hour < 24
  minute : t.minute < 60
  second : t.second < 60
  micro : t.micro < 1000000
  offset : (t.offset.getD 0).natAbs < 86400

theorem wallSeconds_bounds (h : t.Valid) :
    -62135683200 ≤ t.wallSeconds ∧ t.wallSeconds < 253402905600 := by
  have := Date.epochDay_bounds h.date
  have := h.hour
  have := h.minute
  have := h.second
  rw [wallSeconds]
  omega

theorem epochMicros_bounds (h : t.Valid) : t.epochMicros.natAbs < 253403000000000000 := by
  have := wallSeconds_bounds h
  have := h.offset
  have := h.micro
  rw [epochMicros]
  omega

/-! ## Timestamps -/

/-- The timestamp in units of `2 ^ -1074` seconds. -/
def units (t : Instant) : Int :=
  match t.offset with
  | some _ => rounded (t.epochMicros * unit) 1000000
  | none => rounded (t.wallSeconds * unit + rounded (t.micro * unit) 1000000) 1

theorem log2_units_le (k : Nat) {a : Nat} (h : a < powerOfTwo k * unit) : a.log2 ≤ k + 1074 := by
  rw [← powerOfTwo_eq_mul_unit k rfl] at h
  exact log2_le_of_lt (h.trans_le (powerOfTwo_le (Nat.le_succ _)))

/-- Times that are read off a clock are in the range of doubles. -/
theorem log2_le {a d : Nat} (h : a < d * 1152921504606846976) : (a * unit / d).log2 ≤ 2000 := by
  refine (log2_units_le 60 (Nat.div_lt_of_lt_mul ?_)).trans (by decide)
  rw [← Nat.mul_assoc]
  exact Nat.mul_lt_mul_of_pos_right h unit_pos

/-- Whole seconds are doubles. -/
theorem rounded_seconds {s : Int} (h : s.natAbs < 4503599627370496) :
    rounded (s * unit) 1 = s * unit := by
  have bits : (s.natAbs * unit).log2 ≤ 52 + 1074 :=
    log2_units_le 52 (Nat.mul_lt_mul_of_pos_right h unit_pos)
  have whole : powerOfTwo ((s.natAbs * unit).log2 - 52) ∣ s.natAbs * unit :=
    (powerOfTwo_dvd_unit (Nat.sub_le_iff_le_add'.mpr bits)).mul_left _
  rw [← natAbs_units] at whole
  rw [rounded, nearest_eq_self whole, signed_natAbs]

/-- The fraction of the second is rounded at a bit that is small beside a second. -/
theorem fraction_close {m : Nat} (h : m < 1000000) :
    18014398509481984 * (rounded (m * unit) 1000000 * 1000000 - m * unit).natAbs ≤ 1000000 * unit := by
  have one : powerOfTwo 0 * unit = unit := by rw [powerOfTwo_zero, Nat.one_mul]
  have close := error_le 0 (m * unit) (show 0 < 1000000 by decide)
  rw [one, natAbs_units] at close
  exact close (Nat.mul_lt_mul_of_pos_right h unit_pos)

theorem sum_lt (h : t.Valid) :
    (t.wallSeconds * unit + rounded (t.micro * unit) 1000000).natAbs < 549755813888 * unit := by
  have wall := wallSeconds_bounds h
  have fraction := fraction_close h.micro
  have whole : (t.wallSeconds * unit).natAbs ≤ 253402905600 * unit := by
    rw [natAbs_units]
    exact Nat.mul_le_mul_right unit (by omega)
  have part : t.micro * unit ≤ 1000000 * unit := Nat.mul_le_mul_right unit h.micro.le
  have pos := unit_pos
  rw [← Nat.cast_mul] at fraction ⊢
  omega

/-- The timestamp is the number of units that it is said to be. -/
theorem counts_timestamp (h : t.Valid) : Counts t.timestamp t.units := by
  have wall := wallSeconds_bounds h
  have micros := epochMicros_bounds h
  have micro := h.micro
  cases ho : t.offset with
  | some offset =>
    simp only [timestamp, units, ho]
    exact counts_ofIntRatio (by decide) (log2_le (by omega))
  | none =>
    simp only [timestamp, units, ho]
    have seconds : Counts (ofInt t.wallSeconds) (t.wallSeconds * unit) := by
      rw [← rounded_seconds (by omega)]
      exact counts_ofIntRatio Nat.one_pos (log2_le (by omega))
    have fraction : Counts (ofIntRatio t.micro 1000000) (rounded (t.micro * unit) 1000000) :=
      counts_ofIntRatio (by decide) (log2_le (by omega))
    have size := (log2_units_le 39 (sum_lt h)).trans (by decide : 39 + 1074 ≤ 2000)
    obtain ⟨z, hz, count⟩ := counts_add seconds fraction size
    rw [hz]
    exact count

/-! ## Stamps -/

/-- A thousand times the timestamp is little off from the milliseconds. -/
theorem units_close (h : t.Valid) (hn : t.epochMicros = n * 1000) :
    16 * (t.units * 1000 - n * unit).natAbs ≤ unit := by
  have two : powerOfTwo 39 = 549755813888 := rfl
  cases ho : t.offset with
  | some offset =>
    have bound : (t.epochMicros * unit).natAbs < 1000000 * (powerOfTwo 39 * unit) := by
      rw [natAbs_units, two, ← Nat.mul_assoc]
      refine Nat.mul_lt_mul_of_pos_right ?_ unit_pos
      have := epochMicros_bounds h
      omega
    have close := error_le 39 _ (by decide) bound
    have moment : t.epochMicros * unit = n * unit * 1000 := by rw [hn, Int.mul_right_comm]
    simp only [units, ho]
    rw [two] at close
    omega
  | none =>
    have close := error_le 39 (t.wallSeconds * unit + rounded (t.micro * unit) 1000000) Nat.one_pos
      (by rw [two, Nat.one_mul]; exact sum_lt h)
    have fraction := fraction_close h.micro
    have moment : t.wallSeconds * unit * 1000000 + t.micro * unit = n * unit * 1000 := by
      have parts : t.wallSeconds * 1000000 + t.micro = n * 1000 := by
        simpa [epochMicros, ho] using hn
      rw [Int.mul_right_comm n, ← parts]
      ring
    simp only [units, ho]
    rw [two, Nat.one_mul, Nat.cast_one, Int.mul_one] at close
    generalize unit = one at *
    omega

/-- `a` lies below `b` by more than half of its last bit. -/
def Short (a b : Nat) : Prop := 2 * a + powerOfTwo (a.log2 - 52) < 2 * b

instance : DecidableRel Short := fun _ _ => inferInstanceAs (Decidable (_ < _))

/-- A number close to a whole number of units is rounded to that or to less, and then cut off. -/
theorem nearest_div {a n : Nat} (hn : n < 281474976710656) (hl : 16 * (n * unit) ≤ 16 * a + unit)
    (hu : 16 * a ≤ 16 * (n * unit) + unit) :
    nearest a 1 / unit = if Short a (n * unit) then n - 1 else n := by
  have pos := unit_pos
  have small : a < powerOfTwo (1069 + 53) := by
    have below : (n + 1) * unit ≤ powerOfTwo 48 * unit := Nat.mul_le_mul_right unit hn
    rw [Nat.succ_mul, ← powerOfTwo_eq_mul_unit (i := 1069 + 53) 48 rfl] at below
    omega
  have last := powerOfTwo_le (last_le small)
  have fine : unit = powerOfTwo 5 * powerOfTwo 1069 := unit_eq_mul 5 rfl
  have whole : powerOfTwo (a.log2 - 52 + 1) ∣ n * unit :=
    (powerOfTwo_dvd_unit (Nat.succ_le_succ ((last_le small).trans (by decide)))).mul_left n
  have reach := le_nearest_iff whole
  obtain ⟨lower, upper⟩ := nearest_close a Nat.one_pos
  rw [Nat.div_one, Nat.one_mul, Nat.mul_one] at lower upper
  generalize hx : powerOfTwo (a.log2 - 52) = x at last lower upper reach
  generalize powerOfTwo 1069 = y at last fine
  have five : powerOfTwo 5 = 32 := rfl
  rw [five] at fine
  split
  · next h =>
    rw [Short, hx] at h
    have positive : n ≠ 0 := by
      rintro rfl
      omega
    obtain ⟨k, rfl⟩ := Nat.exists_eq_add_one_of_ne_zero positive
    rw [Nat.succ_mul k] at h hl reach
    rw [Nat.add_sub_cancel]
    refine Nat.div_eq_of_lt_le ?_ ?_
    · omega
    · rw [Nat.succ_mul]
      omega
  · next h =>
    rw [Short, hx, Nat.not_lt] at h
    refine Nat.div_eq_of_lt_le (reach.mpr h) ?_
    rw [Nat.succ_mul]
    omega

/-- A thousand times the timestamp lies below `n` milliseconds by more than half of its last bit. -/
def Undershoots (t : Instant) (n : Int) : Prop := Short (t.units * 1000).natAbs (n.natAbs * unit)

instance : Decidable (t.Undershoots n) := inferInstanceAs (Decidable (Short _ _))

theorem not_undershoots_zero : ¬ t.Undershoots 0 := by
  rw [Undershoots, Int.natAbs_zero, Nat.zero_mul]
  exact Nat.not_lt_zero _

theorem natAbs_lt_of_epochMicros (h : t.Valid) (hn : t.epochMicros = n * 1000) :
    n.natAbs < 281474976710656 := by
  have := epochMicros_bounds h
  omega

/-- The stamp of a whole number of milliseconds is that number, or the next one on the way to zero. -/
theorem milliseconds_eq (h : t.Valid) (hn : t.epochMicros = n * 1000) :
    t.milliseconds = if t.Undershoots n then n - n.sign else n := by
  have close := units_close h hn
  have small := natAbs_lt_of_epochMicros h hn
  have size : (n * unit).natAbs = n.natAbs * unit := natAbs_units n
  have bits : (t.units * 1000).natAbs.log2 ≤ 2000 := by
    have below : (n.natAbs + 1) * unit ≤ powerOfTwo 48 * unit := Nat.mul_le_mul_right unit small
    refine (log2_units_le 48 ?_).trans (by decide)
    have pos := unit_pos
    rw [Nat.succ_mul] at below
    omega
  obtain ⟨y, hy, count⟩ := counts_scale (counts_timestamp h) 1000 bits
  have cut : t.milliseconds = (rounded (t.units * 1000) 1).tdiv unit := by
    rw [milliseconds, hy]
    exact congrArg (Option.getD · 0) (truncate?_of_counts count)
  have whole : nearest (t.units * 1000).natAbs 1 / unit =
      if t.Undershoots n then n.natAbs - 1 else n.natAbs := nearest_div small (by omega) (by omega)
  rw [cut, rounded, signed_tdiv, whole]
  by_cases h0 : n = 0
  · subst h0
    rw [if_neg not_undershoots_zero, if_neg not_undershoots_zero]
    exact signed_zero _
  · have sign : t.units * 1000 < 0 ↔ n < 0 := by
      have millis : n * unit < 0 ↔ n < 0 := mul_natCast_neg_iff unit_pos
      have far : unit ≤ n.natAbs * unit := Nat.le_mul_of_pos_left unit (Int.natAbs_pos.mpr h0)
      omega
    rw [decide_eq_decide.mpr sign]
    split
    · exact signed_pred n
    · exact signed_natAbs n

/-! ## Which milliseconds fall short -/

/-- A number of milliseconds that is divided by a thousand and multiplied by it again falls short if the
quotient, as 53 bits of it are left, is rounded down far enough. -/
def Low (n : Nat) : Prop :=
  1000 * powerOfTwo (n.log2 + 1) ≤ 1024 * n ∧
    256 < n * powerOfTwo (61 - n.log2) % 1000 ∧ n * powerOfTwo (61 - n.log2) % 1000 < 500

instance : DecidablePred Low := fun _ => inferInstanceAs (Decidable (_ ∧ _))

theorem short_mul_powerOfTwo {a n : Nat} (ha : powerOfTwo 52 ≤ a) (i : Nat) :
    Short (a * powerOfTwo i) (n * powerOfTwo i) ↔ Short a n := by
  have nonzero : a ≠ 0 := ((powerOfTwo_pos 52).trans_le ha).ne'
  have bits : 52 ≤ a.log2 := (Nat.le_log2 nonzero).mpr ha
  rw [Short, Short, log2_mul_powerOfTwo nonzero, Nat.sub_add_comm bits, powerOfTwo_add,
    ← Nat.mul_assoc, ← Nat.mul_assoc, ← Nat.add_mul]
  exact Nat.mul_lt_mul_right (powerOfTwo_pos i)

/-- A multiple of eight is never in the middle between multiples of a thousand. -/
theorem roundDiv_thousand {w : Nat} (hw : w % 8 = 0) :
    roundDiv w 1000 = if w % 1000 < 500 then w / 1000 else w / 1000 + 1 := by
  rw [roundDiv]
  by_cases h : w % 1000 < 500
  · rw [if_pos (by omega), if_pos h]
  · rw [if_neg (by omega), if_pos (by omega), if_neg h]

theorem short_roundDiv_iff {w : Nat} (hw : w % 8 = 0) (hl : 4503599627370496000 ≤ w)
    (hu : w < 4611686018427387904) :
    Short (roundDiv w 1000 * 1000) w ↔ 256 < w % 1000 ∧ w % 1000 < 500 := by
  rw [roundDiv_thousand hw]
  split
  · have bits : (w / 1000 * 1000).log2 = 61 := log2_eq_of_lt (k := 61)
      (show 2305843009213693952 ≤ _ by omega) (show _ < 4611686018427387904 by omega)
    have last : powerOfTwo (61 - 52) = 512 := rfl
    rw [Short, bits, last]
    omega
  · rw [Short]
    omega

theorem not_short_roundDiv {w : Nat} (hw : w % 1024 = 0) (hl : 4611686018427387904 ≤ w)
    (hu : w < 9007199254740992000) : ¬ Short (roundDiv w 1000 * 1000) w := by
  rw [roundDiv_thousand (by omega)]
  split
  · next h =>
    -- the least such number is rounded up
    have larger : 4611686018427387904 < w := by omega
    have bits : (w / 1000 * 1000).log2 = 62 := log2_eq_of_lt (k := 62)
      (show 4611686018427387904 ≤ _ by omega) (show _ < 9223372036854775808 by omega)
    have last : powerOfTwo (62 - 52) = 1024 := rfl
    rw [Short, bits, last]
    omega
  · rw [Short]
    omega

/-- Milliseconds are taken at the scale at which their quotient by a thousand is a whole number of 53
bits. -/
theorem short_nearest_iff_short_roundDiv {n x : Nat} (hx : x ≤ 1074)
    (hl : 4503599627370496000 ≤ n * powerOfTwo x) (hu : n * powerOfTwo x < 9007199254740992000) :
    Short (nearest (n * unit) 1000 * 1000) (n * unit) ↔
      Short (roundDiv (n * powerOfTwo x) 1000 * 1000) (n * powerOfTwo x) := by
  obtain ⟨i, hi⟩ := Nat.exists_eq_add_of_le hx
  have large : powerOfTwo 52 ≤ roundDiv (n * powerOfTwo x) 1000 * 1000 := by
    have quotient := div_le_roundDiv (n * powerOfTwo x) 1000
    exact (show 4503599627370496 ≤ _ by omega)
  rw [unit_eq_mul x hi.symm, ← Nat.mul_assoc, nearest_mul_powerOfTwo (by decide) hl hu,
    Nat.mul_right_comm _ _ 1000, short_mul_powerOfTwo large]

theorem mod_eq_zero_of_le {n x : Nat} (hx : 10 ≤ x) : n * powerOfTwo x % 1024 = 0 := by
  obtain ⟨i, rfl⟩ := Nat.exists_eq_add_of_le' hx
  rw [powerOfTwo_add, ← Nat.mul_assoc]
  exact Nat.mul_mod_left _ _

theorem short_nearest_iff {n : Nat} (hn : n < 281474976710656) :
    Short (nearest (n * unit) 1000 * 1000) (n * unit) ↔ Low n := by
  by_cases h0 : n = 0
  · subst h0
    have none : nearest 0 1000 = 0 := by decide
    rw [Nat.zero_mul, none]
    decide
  obtain ⟨lower, upper⟩ := (log2_eq_iff h0).mp rfl
  have bits : n.log2 < 48 := (Nat.log2_lt h0).mpr hn
  rw [Low]
  generalize n.log2 = l at lower upper bits ⊢
  by_cases h : 1000 * powerOfTwo (l + 1) ≤ 1024 * n
  · have even : n * powerOfTwo (61 - l) % 1024 = 0 := mod_eq_zero_of_le (by omega)
    have scale : powerOfTwo (l + 1) * powerOfTwo (61 - l) = 4611686018427387904 :=
      powerOfTwo_mul_eq (k := 62) (by omega)
    have low := Nat.mul_le_mul_right (powerOfTwo (61 - l)) h
    have high := Nat.mul_lt_mul_of_pos_right upper (powerOfTwo_pos (61 - l))
    rw [Nat.mul_assoc, Nat.mul_assoc, scale] at low
    rw [scale] at high
    rw [and_iff_right h,
      short_nearest_iff_short_roundDiv (x := 61 - l) (by omega) (by omega) (by omega)]
    exact short_roundDiv_iff (by omega) (by omega) high
  · have even : n * powerOfTwo (62 - l) % 1024 = 0 := mod_eq_zero_of_le (by omega)
    have scale : powerOfTwo (l + 1) * powerOfTwo (62 - l) = 9223372036854775808 :=
      powerOfTwo_mul_eq (k := 63) (by omega)
    have scale' : powerOfTwo l * powerOfTwo (62 - l) = 4611686018427387904 :=
      powerOfTwo_mul_eq (k := 62) (by omega)
    have low := Nat.mul_le_mul_right (powerOfTwo (62 - l)) lower
    have high := Nat.mul_lt_mul_of_pos_right (Nat.not_le.mp h) (powerOfTwo_pos (62 - l))
    rw [scale'] at low
    rw [Nat.mul_assoc, Nat.mul_assoc, scale] at high
    rw [short_nearest_iff_short_roundDiv (x := 62 - l) (by omega) (by omega) (by omega)]
    exact iff_of_false (not_short_roundDiv even low (by omega)) fun ⟨h', _⟩ => h h'

/-- With an offset, the milliseconds that fall short are told by a remainder. -/
theorem undershoots_iff_low (hn : t.epochMicros = n * 1000) (ho : t.offset ≠ none)
    (hb : n.natAbs < 281474976710656) : t.Undershoots n ↔ Low n.natAbs := by
  obtain ⟨offset, ho⟩ := Option.ne_none_iff_exists'.mp ho
  have moment : t.epochMicros * unit * (1000 : Nat) = n * unit * (1000000 : Nat) := by
    rw [hn]
    push_cast
    ring
  have quotient : (t.units * 1000).natAbs = nearest (n.natAbs * unit) 1000 * 1000 := by
    simp only [units, ho]
    rw [rounded_congr (by decide) (by decide) moment, Int.natAbs_mul, rounded, natAbs_signed,
      natAbs_units]
    rfl
  rw [Undershoots, quotient]
  exact short_nearest_iff hb

/-- The stamp of `n` milliseconds is one too small. -/
def FallsShort (t : Instant) (n : Int) : Prop :=
  match t.offset with
  | some _ => Low n.natAbs
  | none => t.Undershoots n

theorem fallsShort_iff_undershoots (h : t.Valid) (hn : t.epochMicros = n * 1000) :
    t.FallsShort n ↔ t.Undershoots n := by
  cases ho : t.offset with
  | none => simp only [FallsShort, ho]
  | some offset =>
    simp only [FallsShort, ho]
    exact (undershoots_iff_low hn (by simp [ho]) (natAbs_lt_of_epochMicros h hn)).symm

/-- One millisecond before or after 1970 does not fall short. -/
theorem not_undershoots_one (h : t.Valid) (hn : t.epochMicros = n * 1000) (h1 : n.natAbs = 1) :
    ¬ t.Undershoots n := by
  cases ho : t.offset with
  | some offset =>
    rw [undershoots_iff_low hn (by simp [ho]) (by omega), h1]
    decide
  | none =>
    have micro := h.micro
    have parts : t.wallSeconds * 1000000 + t.micro = n * 1000 := by simpa [epochMicros, ho] using hn
    have sums : ¬ Short (rounded ((0 : Int) * unit + rounded ((1000 : Nat) * unit) 1000000) 1 * 1000).natAbs
          (1 * unit) ∧
        ¬ Short (rounded ((-1 : Int) * unit + rounded ((999000 : Nat) * unit) 1000000) 1 * 1000).natAbs
          (1 * unit) := by decide +kernel
    rw [Undershoots, h1]
    simp only [units, ho]
    rcases Int.natAbs_eq n with hp | hp <;> rw [h1] at hp
    · obtain ⟨hw, hm⟩ : t.wallSeconds = 0 ∧ t.micro = 1000 := by omega
      rw [hw, hm]
      exact sums.1
    · obtain ⟨hw, hm⟩ : t.wallSeconds = -1 ∧ t.micro = 999000 := by omega
      rw [hw, hm]
      exact sums.2

theorem two_le_of_undershoots (h : t.Valid) (hn : t.epochMicros = n * 1000) (hs : t.Undershoots n) :
    2 ≤ n.natAbs := by
  have notZero : n ≠ 0 := fun h0 => not_undershoots_zero (h0 ▸ hs)
  have notOne : n.natAbs ≠ 1 := fun h1 => not_undershoots_one h hn h1 hs
  omega

/-- Different numbers stay different one step closer to zero, unless zero is reached. -/
theorem sub_sign_ne (hm : 2 ≤ m.natAbs) (hn : 2 ≤ n.natAbs) (hne : m ≠ n) :
    m - m.sign ≠ n - n.sign := by
  have sign (k : Int) (hk : 2 ≤ k.natAbs) : 0 < k ∧ k.sign = 1 ∨ k < 0 ∧ k.sign = -1 := by
    rcases Int.lt_or_gt_of_ne (show k ≠ 0 by omega) with h | h
    · exact .inr ⟨h, Int.sign_eq_neg_one_of_neg h⟩
    · exact .inl ⟨h, Int.sign_eq_one_of_pos h⟩
  have := sign m hm
  have := sign n hn
  omega

/-- Two different milliseconds have one stamp exactly if one of them falls short and the other, which
does not, is the next one on the way to zero. -/
theorem milliseconds_eq_iff (ht : t.Valid) (hu : u.Valid) (hm : t.epochMicros = m * 1000)
    (hn : u.epochMicros = n * 1000) (hne : m ≠ n) : t.milliseconds = u.milliseconds ↔
      t.FallsShort m ∧ ¬ u.FallsShort n ∧ n = m - m.sign ∨
        u.FallsShort n ∧ ¬ t.FallsShort m ∧ m = n - n.sign := by
  rw [milliseconds_eq ht hm, milliseconds_eq hu hn, fallsShort_iff_undershoots ht hm,
    fallsShort_iff_undershoots hu hn]
  by_cases hs : t.Undershoots m <;> by_cases hs' : u.Undershoots n
  · have apart := sub_sign_ne (two_le_of_undershoots ht hm hs) (two_le_of_undershoots hu hn hs') hne
    simp [hs, hs', apart]
  · simp only [hs, hs', if_true, if_false, not_false_iff, true_and, false_and, or_false]
    exact eq_comm
  · simp [hs, hs']
  · simp [hs, hs', hne]

end Instant

end BlockSketch
