import BlockSketch.Proofs.Composition

/-! # Letter case of prompts

Sentences are read in lower case, and the lower case of a text does not depend on the case of its
ASCII letters: not even that of a capital sigma, which depends on its neighbours, since an ASCII letter
has letter case in either form. So prompts that differ in nothing else give the same actions, or fail
alike.
-/

namespace BlockSketch

namespace Text

variable {s before : List Char} {c : Char}

/-! ## ASCII letters in either case -/

/-- The character and its lower case are alike for everything that is looked at before a text is
lowered. -/
def Caseless (c : Char) : Prop :=
  isBlank c.toLower = isBlank c ∧ isCased c.toLower = isCased c ∧
    isCaseIgnorable c.toLower = isCaseIgnorable c ∧ lowerChar c.toLower = lowerChar c ∧
    (c.toLower == 'Σ') = (c == 'Σ')

instance : DecidablePred Caseless := fun _ => inferInstanceAs (Decidable (_ ∧ _))

theorem caseless (c : Char) : Caseless c := by
  by_cases hc : c.toNat < 128
  · exact forall_ascii (P := Caseless) (by decide) hc
  · rw [Caseless, toLower_beyond (by omega)]
    exact ⟨rfl, rfl, rfl, rfl, rfl⟩

/-- A text with its ASCII letters in lower case. -/
def lowerLetters (s : List Char) : List Char := s.map Char.toLower

theorem lowerLetters_cons : lowerLetters (c :: s) = c.toLower :: lowerLetters s := rfl

theorem dropWhile_lowerLetters {p : Char → Bool} (h : ∀ c : Char, p c.toLower = p c) :
    (lowerLetters s).dropWhile p = lowerLetters (s.dropWhile p) := by
  have hp : p ∘ Char.toLower = p := funext h
  rw [lowerLetters, List.dropWhile_map, hp]
  rfl

theorem trim_lowerLetters : trim (lowerLetters s) = lowerLetters (trim s) := by
  have blank (c : Char) : isBlank c.toLower = isBlank c := (caseless c).1
  have reverse (s : List Char) : (lowerLetters s).reverse = lowerLetters s.reverse :=
    List.map_reverse.symm
  simp only [trim, trimLeft, trimRight, dropWhile_lowerLetters blank, reverse]

theorem meetsCased_lowerLetters : meetsCased (lowerLetters s) = meetsCased s := by
  rw [meetsCased, dropWhile_lowerLetters fun c => (caseless c).2.2.1, meetsCased]
  cases s.dropWhile isCaseIgnorable with
  | nil => rfl
  | cons c s => exact (caseless c).2.1

theorem sigmaIsFinal_lowerLetters :
    sigmaIsFinal (lowerLetters before) (lowerLetters s) = sigmaIsFinal before s := by
  rw [sigmaIsFinal, sigmaIsFinal, meetsCased_lowerLetters, meetsCased_lowerLetters]

/-- What precedes a text and what follows a sigma in it can be in either case. -/
theorem lowerAfter_lowerLetters :
    lowerAfter (lowerLetters before) (lowerLetters s) = lowerAfter before s := by
  induction s generalizing before with
  | nil => rfl
  | cons c s ih =>
    obtain ⟨-, -, -, lowered, sigma⟩ := caseless c
    have rest : lowerAfter (c.toLower :: lowerLetters before) (lowerLetters s) =
        lowerAfter (c :: before) s := @ih (c :: before)
    rw [lowerLetters_cons, lowerAfter, lowerAfter, rest, sigma, lowered, sigmaIsFinal_lowerLetters]

theorem lower_lowerLetters : lower (lowerLetters s) = lower s := @lowerAfter_lowerLetters s []

end Text

namespace Prompt

open Text

variable {p q : String} {s : List Char}

/-! ## Prompts -/

theorem isSeparator_toLower (c : Char) : isSeparator c.toLower = isSeparator c := by
  by_cases hc : c.toNat < 128
  · exact forall_ascii (P := fun c => isSeparator c.toLower = isSeparator c) (by decide) hc
  · rw [toLower_beyond (by omega)]

theorem pieces_lowerLetters :
    Pin.pieces isSeparator (lowerLetters s) = (Pin.pieces isSeparator s).map lowerLetters := by
  induction s with
  | nil => rfl
  | cons c s ih =>
    rw [lowerLetters_cons, Pin.pieces, Pin.pieces, isSeparator_toLower, ih]
    split
    · rfl
    · cases Pin.pieces isSeparator s <;> rfl

theorem segments_lowerLetters : segments (lowerLetters s) = (segments s).map lowerLetters := by
  have trimmed : trim ∘ lowerLetters = lowerLetters ∘ trim := funext fun t => trim_lowerLetters
  have empty : (fun t => !(lowerLetters t).isEmpty) = fun t => !t.isEmpty := by
    funext t
    cases t <;> rfl
  rw [segments, pieces_lowerLetters, List.map_map, trimmed, ← List.map_map, List.filter_map,
    Function.comp_def, empty]
  rfl

/-- The texts have the same characters, but for the case of ASCII letters. -/
def Recased (p q : String) : Prop :=
  List.Forall₂ (fun c d => c = d ∨ c.isAlpha = true ∧ d.isAlpha = true ∧ c.toLower = d.toLower)
    p.toList q.toList

instance : Decidable (Recased p q) := inferInstanceAs (Decidable (List.Forall₂ _ _ _))

theorem Recased.lowerLetters_eq (h : Recased p q) : lowerLetters p.toList = lowerLetters q.toList := by
  have same : List.Forall₂ (fun c d : Char => c.toLower = d.toLower) p.toList q.toList :=
    h.imp fun c d hcd => hcd.elim (congrArg Char.toLower) fun h => h.2.2
  rw [lowerLetters, lowerLetters, ← List.forall₂_eq_eq_eq, List.forall₂_map_left_iff,
    List.forall₂_map_right_iff]
  exact same

/-- What a prompt says is what it says with its letters in lower case. -/
theorem spoken_eq_lowerLetters (p : String) :
    spoken p = (segments (lowerLetters p.toList)).map lower := by
  rw [segments_lowerLetters, List.map_map, spoken]
  exact List.map_congr_left fun t _ => lower_lowerLetters.symm

/-- Prompts that differ only in the case of ASCII letters give the same actions, with the same words,
texts and conditions, or fail in the same way. -/
theorem actions_recased (h : Recased p q) : actions p = actions q := by
  refine actions_congr ?_
  rw [spoken_eq_lowerLetters, spoken_eq_lowerLetters, h.lowerLetters_eq]

/-- A capital sigma at the end of a word, after a letter in either case. -/
theorem actions_recased_sigma :
    Recased "Print 'AΣ', Turn ON Lamp; IF Σ" "pRINT 'aΣ', tURN on lAMP; if Σ" ∧
      actions "Print 'AΣ', Turn ON Lamp; IF Σ" =
        actions "pRINT 'aΣ', tURN on lAMP; if Σ" ∧
      actions "pRINT 'aΣ', tURN on lAMP; if Σ" = .ok [
        { kind := .print, component := some "lcd", value := some (.text "aς") },
        { kind := .set, component := some "lamp", value := some (.text "HIGH") },
        { kind := .conditional, condition := some "σ" }] := by
  have recased : Recased "Print 'AΣ', Turn ON Lamp; IF Σ" "pRINT 'aΣ', tURN on lAMP; if Σ" := by
    decide
  exact ⟨recased, actions_recased recased, rfl⟩

end Prompt

end BlockSketch
