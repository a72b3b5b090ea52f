import BlockSketch.Text.Blank
import BlockSketch.Text.Case
import BlockSketch.Text.Digit
import BlockSketch.Text.Word

/-! # ASCII characters

The character tables cover every script. On ASCII characters they agree with the usual classes, which
is checked once over all 128 of them.
-/

namespace BlockSketch.Text

variable {c : Char}

/-- Statements about the characters of a text are decided along the text, not over all characters. -/
instance decidableForallMem {p : Char → Prop} [DecidablePred p] (s : List Char) :
    Decidable (∀ c ∈ s, p c) := List.decidableBAll p s

theorem forall_ascii {P : Char → Prop} (h : ∀ n < 128, P (Char.ofNat n)) (hc : c.toNat < 128) :
    P c := Char.ofNat_toNat c ▸ h c.toNat hc

/-- The characters of words in lower case. -/
def isPlain (c : Char) : Bool := c.isLower || c.isDigit || c == '_'

theorem isUpper_iff : c.isUpper = true ↔
    'A'.val.toNat ≤ c.val.toNat ∧ c.val.toNat ≤ 'Z'.val.toNat := by
  have h : c.isUpper = decide ('A'.val ≤ c.val ∧ c.val ≤ 'Z'.val) := rfl
  simp only [h, decide_eq_true_eq, UInt32.le_iff_toNat_le]

theorem isLower_iff : c.isLower = true ↔
    'a'.val.toNat ≤ c.val.toNat ∧ c.val.toNat ≤ 'z'.val.toNat := by
  have h : c.isLower = (decide ('a'.val ≤ c.val) && decide (c.val ≤ 'z'.val)) := rfl
  simp only [h, Bool.and_eq_true, decide_eq_true_eq, UInt32.le_iff_toNat_le]

theorem isDigit_iff : c.isDigit = true ↔
    '0'.val.toNat ≤ c.val.toNat ∧ c.val.toNat ≤ '9'.val.toNat := by
  have h : c.isDigit = (decide ('0'.val ≤ c.val) && decide (c.val ≤ '9'.val)) := rfl
  simp only [h, Bool.and_eq_true, decide_eq_true_eq, UInt32.le_iff_toNat_le]

theorem toNat_lt_of_isPlain (h : isPlain c = true) : c.toNat < 128 := by
  simp only [isPlain, Bool.or_eq_true, isLower_iff, isDigit_iff, beq_iff_eq] at h
  rcases h with (h | h) | rfl
  · exact Nat.lt_of_le_of_lt h.2 (by decide)
  · exact Nat.lt_of_le_of_lt h.2 (by decide)
  · decide

theorem isAlphanum_of_isAlpha (h : c.isAlpha = true) : c.isAlphanum = true :=
  Bool.or_eq_true_iff.mpr (.inl h)

theorem toNat_lt_of_isAlphanum (h : c.isAlphanum = true) : c.toNat < 128 := by
  have classes : c.isAlphanum = (c.isUpper || c.isLower || c.isDigit) := rfl
  simp only [classes, Bool.or_eq_true, isUpper_iff, isLower_iff, isDigit_iff] at h
  rcases h with (h | h) | h
  · exact Nat.lt_of_le_of_lt h.2 (by decide)
  · exact Nat.lt_of_le_of_lt h.2 (by decide)
  · exact Nat.lt_of_le_of_lt h.2 (by decide)

theorem isPlain_of_isDigit (h : c.isDigit = true) : isPlain c = true := by simp [isPlain, h]

/-- The tables agree with the usual classes on the character, and its cases are the usual ones. -/
def Usual (c : Char) : Prop :=
  (isPlain c = true → isWord c = true ∧ isBlank c = false) ∧
    (c.isDigit = true → isDigit c = true ∧ c.toUpper = c) ∧
    (isBlank c = true → c.toLower = c) ∧ (c.toLower.isLower = false → c = c.toLower) ∧
    c.toLower.isUpper = false

instance : DecidablePred Usual := fun _ => inferInstanceAs (Decidable (_ ∧ _))

theorem usual_of_ascii (hc : c.toNat < 128) : Usual c :=
  forall_ascii (P := Usual) (by decide +kernel) hc

theorem isWord_of_isPlain (h : isPlain c = true) : isWord c = true :=
  ((usual_of_ascii (toNat_lt_of_isPlain h)).1 h).1

theorem not_isBlank_of_isPlain (h : isPlain c = true) : isBlank c = false :=
  ((usual_of_ascii (toNat_lt_of_isPlain h)).1 h).2

theorem isDigit_of_ascii (h : c.isDigit = true) : isDigit c = true :=
  ((usual_of_ascii (toNat_lt_of_isPlain (isPlain_of_isDigit h))).2.1 h).1

theorem toUpper_of_isDigit (h : c.isDigit = true) : c.toUpper = c :=
  ((usual_of_ascii (toNat_lt_of_isPlain (isPlain_of_isDigit h))).2.1 h).2

theorem toLower_beyond (h : 128 ≤ c.toNat) : c.toLower = c := by
  have hu : ¬ (c.val ≥ 'A'.val ∧ c.val ≤ 'Z'.val) := by
    rintro ⟨-, hz⟩
    have hc : c.toNat < 128 := Nat.lt_of_le_of_lt (UInt32.le_iff_toNat_le.mp hz) (by decide)
    omega
  exact dif_neg hu

/-- Blanks are the same in either case. -/
theorem toLower_of_isBlank (h : isBlank c = true) : c.toLower = c := by
  by_cases hc : c.toNat < 128
  · exact (usual_of_ascii hc).2.2.1 h
  · exact toLower_beyond (by omega)

/-! ## Blanks -/

def blankCodes : List Nat := List.range' 9 5 ++ List.range' 28 5 ++ [0x85, 0xA0, 0x1680] ++
  List.range' 0x2000 11 ++ [0x2028, 0x2029, 0x202F, 0x205F, 0x3000]

theorem mem_blankCodes (h : isBlank c = true) : c.toNat ∈ blankCodes := by
  simp only [isBlank, Bool.or_eq_true, Bool.and_eq_true, decide_eq_true_eq, beq_iff_eq] at h
  simp only [blankCodes, List.mem_append, List.mem_range'_1, List.mem_cons, List.not_mem_nil, or_false]
  omega

/-- The character is the same in upper case, and it is no part of words and numbers. -/
def Separate (c : Char) : Prop :=
  (upperChar c = [c] ∧ c.toUpper = c) ∧ isWord c = false ∧ isDigit c = false

instance : DecidablePred Separate := fun _ => inferInstanceAs (Decidable (_ ∧ _))

theorem separate_of_isBlank (h : isBlank c = true) : Separate c := by
  have all : ∀ n ∈ blankCodes, Separate (Char.ofNat n) := by decide +kernel
  exact Char.ofNat_toNat c ▸ all c.toNat (mem_blankCodes h)

theorem not_isBlank_of_isWord (h : isWord c = true) : isBlank c = false :=
  Bool.eq_false_iff.mpr fun hb => Bool.eq_false_iff.mp (separate_of_isBlank hb).2.1 h

theorem not_isBlank_of_isDigit (h : isDigit c = true) : isBlank c = false :=
  Bool.eq_false_iff.mpr fun hb => Bool.eq_false_iff.mp (separate_of_isBlank hb).2.2 h

/-! ## Lower case -/

/-- An ASCII text is lowered character by character. -/
theorem lower_eq_map {s : List Char} (h : ∀ c ∈ s, c.toNat < 128) : lower s = s.map Char.toLower := by
  suffices ∀ before, lowerAfter before s = s.map Char.toLower from this []
  induction s with
  | nil => exact fun _ => rfl
  | cons c s ih =>
    intro before
    obtain ⟨hc, hs⟩ := List.forall_mem_cons.mp h
    have hn : (c == 'Σ') = false := by
      simp only [beq_eq_false_iff_ne, ne_eq]
      rintro rfl
      exact absurd hc (by decide)
    rw [lowerAfter, hn, lowerChar_of_lt hc, ih hs]
    rfl

end BlockSketch.Text
