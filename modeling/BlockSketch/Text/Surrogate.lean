/-!
# Surrogates

Escapes in documents can name a surrogate, half of a character beyond the basic plane, on its own.  A
text keeps such a half as a stand-in near the end of the last plane, where no characters are assigned.
-/

namespace BlockSketch.Text

/-- Whether a code is that of a surrogate. -/
def isSurrogate (code : Nat) : Bool := 0xD800 ≤ code && code ≤ 0xDFFF

/-- How far the stand-ins are from the codes they stand for. -/
def standInOffset : Nat := 0x100000

/-- The character of a code; for a surrogate its stand-in. -/
def charOfCode (code : Nat) : Char := Char.ofNat (if isSurrogate code then code + standInOffset else code)

/-- The code that a character stands for. -/
def codeOf (c : Char) : Nat :=
  if standInOffset ≤ c.toNat && isSurrogate (c.toNat - standInOffset) then c.toNat - standInOffset
  else c.toNat

/-- Whether a character stands for a surrogate. -/
def isHalf (c : Char) : Bool := isSurrogate (codeOf c)

theorem toNat_ofNat {n : Nat} (h : n.isValidChar) : (Char.ofNat n).toNat = n := by
  rw [Char.ofNat, dif_pos h]
  rfl

/-- Every code below the stand-ins has a character of its own. -/
theorem codeOf_charOfCode {code : Nat} (h : code < 0x10D800) : codeOf (charOfCode code) = code := by
  by_cases hc : isSurrogate code = true
  · have hb : 0xD800 ≤ code ∧ code ≤ 0xDFFF := by simpa [isSurrogate] using hc
    have hn : (code + standInOffset).isValidChar := by
      right; simp only [standInOffset]; omega
    have hle : (decide (standInOffset ≤ code + standInOffset)) = true := by simp
    rw [charOfCode, if_pos hc, codeOf, toNat_ofNat hn, Nat.add_sub_cancel, hle, hc]
    rfl
  · have hb : ¬(0xD800 ≤ code ∧ code ≤ 0xDFFF) := by simpa [isSurrogate] using hc
    have hn : code.isValidChar := by
      by_cases hl : code < 0xD800
      · exact Or.inl hl
      · exact Or.inr ⟨by omega, by omega⟩
    have hf : (decide (standInOffset ≤ code) && isSurrogate (code - standInOffset)) = false := by
      have hl : ¬0xD800 ≤ code - 0x100000 := by omega
      simp only [standInOffset, isSurrogate, hl, decide_false, Bool.false_and, Bool.and_false]
    rw [charOfCode, if_neg hc, codeOf, toNat_ofNat hn, hf]
    rfl

end BlockSketch.Text
