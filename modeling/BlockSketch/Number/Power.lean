/-!
# Powers of two and of ten

The scales of binary and of decimal numbers.
-/

namespace BlockSketch

/-- Two to the power `n`. -/
def powerOfTwo (n : Nat) : Nat := Nat.pow 2 n

/-- Ten to the power `n`. -/
def powerOfTen (n : Nat) : Nat := Nat.pow 10 n

theorem powerOfTwo_succ (n : Nat) : powerOfTwo (n + 1) = powerOfTwo n * 2 := rfl

theorem powerOfTen_succ (n : Nat) : powerOfTen (n + 1) = powerOfTen n * 10 := rfl

theorem powerOfTwo_pos (n : Nat) : 0 < powerOfTwo n := Nat.pow_pos (by decide)

theorem powerOfTen_pos (n : Nat) : 0 < powerOfTen n := Nat.pow_pos (by decide)

end BlockSketch
