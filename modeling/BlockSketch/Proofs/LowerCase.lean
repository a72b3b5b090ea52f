import BlockSketch.Proofs.Characters
import BlockSketch.Text.Surrogate

/-! # Lower case

Hardly any character beyond ASCII is lowered to an ASCII one, and what it is lowered to is a letter. So
an ASCII character of a lowered text that is no letter stands in the text itself, and no letter of a
lowered text is in upper case.
-/

namespace BlockSketch.Text

variable {c d : Char} {s w before : List Char} {n : Nat}

/-! ## Beyond ASCII -/

theorem shifted_beyond {runs : List CaseRun} (hn : 128 ≤ n)
    (h : ∀ r ∈ runs, r.last < 128 ∨ 128 ≤ r.first + r.shift ∨
      r.first = r.last ∧ r.first + r.shift = 'k'.toNat) :
    128 ≤ shifted runs n ∨ shifted runs n = 'k'.toNat := by
  induction runs with
  | nil => exact .inl hn
  | cons r runs ih =>
    obtain ⟨hr, h⟩ := List.forall_mem_cons.mp h
    rw [shifted]
    split
    · exact .inl hn
    · split
      · next hf hl =>
        simp only [Bool.and_eq_true, decide_eq_true_eq] at hl
        rcases hr with hr | hr | ⟨he, hk⟩
        · omega
        · left
          omega
        · right
          omega
      · exact ih h

/-- The only ASCII characters that others are lowered to, with the one for no character. -/
def lowered : List Char := ['i', 'k', '\x00']

theorem ofNat_beyond (h : 128 ≤ n) : 128 ≤ (Char.ofNat n).toNat ∨ Char.ofNat n ∈ lowered := by
  by_cases hv : n.isValidChar
  · rw [toNat_ofNat hv]
    exact .inl h
  · rw [Char.ofNat, dif_neg hv]
    exact .inr (by decide)

/-- One character alone has a longer form, which is that of an `i` with a dot. -/
theorem codes_of_lookup {codes : List Nat} (h : lowerExpansions.lookup n = some codes) :
    codes = [105, 775] := by
  obtain ⟨l₁, l₂, he, -⟩ := List.lookup_eq_some_iff.mp h
  have hm : (n, codes) ∈ lowerExpansions := by simp [he]
  exact (Prod.mk.inj (List.mem_singleton.mp hm)).2

theorem lowerChar_beyond (h : 128 ≤ c.toNat) (hd : d ∈ lowerChar c) :
    128 ≤ d.toNat ∨ d ∈ lowered := by
  rw [lowerChar, if_neg (by omega), caseMap] at hd
  split at hd
  · next codes hl =>
    obtain rfl := codes_of_lookup hl
    have images : ∀ d ∈ [105, 775].map Char.ofNat, 128 ≤ d.toNat ∨ d ∈ lowered := by decide
    exact images d hd
  · obtain rfl := List.mem_singleton.mp hd
    rcases shifted_beyond h (by decide +kernel : ∀ r ∈ lowerRuns, _) with hs | hs
    · exact ofNat_beyond hs
    · rw [hs]
      exact .inr (by decide)

theorem lowerChar_ne_nil (c : Char) : lowerChar c ≠ [] := by
  unfold lowerChar caseMap
  split
  · exact List.cons_ne_nil _ _
  · split
    · next hl =>
      rw [codes_of_lookup hl]
      exact List.cons_ne_nil _ _
    · exact List.cons_ne_nil _ _

theorem exists_lowerChar (h : 128 ≤ c.toNat) :
    ∃ d l, lowerChar c = d :: l ∧ (128 ≤ d.toNat ∨ d ∈ lowered) := by
  obtain ⟨d, l, hd⟩ := List.exists_cons_of_ne_nil (lowerChar_ne_nil c)
  exact ⟨d, l, hd, lowerChar_beyond h (hd ▸ List.mem_cons_self)⟩

/-! ## Lowered texts -/

/-- Only texts with a given ASCII word in front, in either case, have it in front once lowered. -/
theorem prefix_lowerAfter_iff (hw : ∀ c ∈ w, c.toNat < 128 ∧ c ∉ lowered) :
    w <+: lowerAfter before s ↔ ∃ t u, s = t ++ u ∧ t.map Char.toLower = w := by
  induction w generalizing s before with
  | nil => simp
  | cons c w ih =>
    obtain ⟨⟨hc, hl⟩, hw⟩ := List.forall_mem_cons.mp hw
    cases s with
    | nil => simp [lowerAfter]
    | cons a s =>
      have split : (∃ t u, a :: s = t ++ u ∧ t.map Char.toLower = c :: w) ↔
          a.toLower = c ∧ ∃ t u, s = t ++ u ∧ t.map Char.toLower = w := by
        constructor
        · rintro ⟨t, u, hs, ht⟩
          obtain ⟨b, t, rfl, hb, rfl⟩ := List.map_eq_cons_iff.mp ht
          obtain ⟨rfl, rfl⟩ := List.cons.inj hs
          exact ⟨hb, t, u, rfl, rfl⟩
        · rintro ⟨rfl, t, u, rfl, rfl⟩
          exact ⟨a :: t, u, rfl, rfl⟩
      rw [split, lowerAfter]
      by_cases ha : a.toNat < 128
      · have hn : (a == 'Σ') = false := by
          simp only [beq_eq_false_iff_ne, ne_eq]
          rintro rfl
          exact absurd ha (by decide)
        rw [hn, lowerChar_of_lt ha]
        simp [List.cons_prefix_cons, ih hw, eq_comm]
      · obtain ⟨d, l, hd, hdl⟩ : ∃ d l, (if a == 'Σ' then
            [if sigmaIsFinal before s then 'ς' else 'σ'] else lowerChar a) = d :: l ∧
            (128 ≤ d.toNat ∨ d ∈ lowered) := by
          split
          · refine ⟨_, _, rfl, .inl ?_⟩
            split <;> decide
          · exact exists_lowerChar (by omega)
        have hne : c ≠ d := by
          rintro rfl
          rcases hdl with h | h
          · omega
          · exact hl h
        have hac : a.toLower ≠ c := by
          rw [toLower_beyond (by omega)]
          rintro rfl
          exact ha hc
        rw [hd, List.cons_append, List.cons_prefix_cons]
        simp [hne, hac]

/-- Lowering changes an ASCII character only to make it a letter in lower case. -/
theorem eq_of_toLower (h : c.toLower = d) (hd : d.isLower = false) : c = d := by
  subst h
  by_cases hc : c.toNat < 128
  · exact (usual_of_ascii hc).2.2.2.1 hd
  · exact (toLower_beyond (by omega)).symm

theorem mem_lowerAfter (h : d ∈ lowerAfter before s) (hd : d.toNat < 128) :
    d ∈ lowered ∨ ∃ c ∈ s, c.toLower = d := by
  induction s generalizing before with
  | nil => cases h
  | cons c s ih =>
    rw [lowerAfter, List.mem_append] at h
    rcases h with h | h
    · split at h
      · split at h <;> obtain rfl := List.mem_singleton.mp h <;> exact absurd hd (by decide)
      · by_cases hc : c.toNat < 128
        · rw [lowerChar_of_lt hc] at h
          exact .inr ⟨c, List.mem_cons_self, (List.mem_singleton.mp h).symm⟩
        · exact (lowerChar_beyond (by omega) h).elim (fun hb => by omega) .inl
    · rcases ih h with hl | ⟨e, he, hed⟩
      · exact .inl hl
      · exact .inr ⟨e, List.mem_cons_of_mem _ he, hed⟩

/-- An ASCII character that is no letter is not made by lowering. -/
theorem mem_of_mem_lower (h : d ∈ lower s) (hd : d.toNat < 128) (hn : d.isLower = false)
    (hl : d ∉ lowered) : d ∈ s := by
  rcases mem_lowerAfter h hd with hm | ⟨c, hc, hcd⟩
  · exact absurd hm hl
  · exact eq_of_toLower hcd hn ▸ hc

/-- No letter of a lowered text is in upper case. -/
theorem isUpper_of_mem_lower (h : d ∈ lower s) : d.isUpper = false := by
  by_cases hd : d.toNat < 128
  · rcases mem_lowerAfter h hd with hm | ⟨c, -, rfl⟩
    · exact (by decide : ∀ d ∈ lowered, d.isUpper = false) d hm
    · by_cases hc : c.toNat < 128
      · exact (usual_of_ascii hc).2.2.2.2
      · rw [toLower_beyond (by omega)] at hd
        exact absurd hd hc
  · have beyond : ¬ d.val ≤ 'Z'.val := fun hz =>
      hd (Nat.lt_of_le_of_lt (UInt32.le_iff_toNat_le.mp hz) (by decide))
    exact decide_eq_false fun hu => beyond hu.2

end BlockSketch.Text
