/-!
# Ranges of code points

Membership in an ascending list of closed ranges, the form of all character tables here.
-/

namespace BlockSketch.Text

/-- Whether `n` lies in one of the ranges, which are ascending and apart. -/
def covers : List (Nat × Nat) → Nat → Bool
  | [], _ => false
  | (lo, hi) :: rest, n => lo ≤ n && (n ≤ hi || covers rest n)

theorem covers_cons (lo hi n : Nat) (rest : List (Nat × Nat)) :
    covers ((lo, hi) :: rest) n = (decide (lo ≤ n) && (decide (n ≤ hi) || covers rest n)) := rfl

/-- A code point below the first range is in none. -/
theorem covers_eq_false_of_lt {lo hi n : Nat} {rest : List (Nat × Nat)} (h : n < lo) :
    covers ((lo, hi) :: rest) n = false := by
  simp [covers, Nat.not_le.mpr h]

end BlockSketch.Text
