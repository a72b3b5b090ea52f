import BlockSketch.Proofs.Outcome
import BlockSketch.Text.Scan
import Mathlib.Data.List.Infix
import Mathlib.Data.List.TakeWhile

/-! # Occurrences of patterns

A pattern is a list of words and gaps of white space. What a text may be divided into says nothing of
how it is read; but since no word begins with a blank, reading as many blanks as there are and never
going back finds the only division there is. A search finds the first place at which there is one.
-/

namespace BlockSketch.Text

variable {α : Type} {p : Char → Bool} {c : Char} {w s t u rest g : List Char}

/-! ## Patterns -/

/-- An item of a pattern. -/
inductive Item where
  | word (w : String)
  /-- White space, at least one character of it. -/
  | gap
  deriving DecidableEq, Repr

variable {ps : List Item}

/-- The text begins with the items one right after the other, and then the rest follows. -/
inductive Begins : List Item → List Char → List Char → Prop where
  | nil {s : List Char} : Begins [] s s
  | word {w : String} {ps : List Item} {s rest : List Char} :
      Begins ps s rest → Begins (.word w :: ps) (w.toList ++ s) rest
  | gap {g : List Char} {ps : List Item} {s rest : List Char} :
      g ≠ [] → (∀ c ∈ g, isBlank c = true) → Begins ps s rest → Begins (.gap :: ps) (g ++ s) rest

/-- The text does not begin with white space. -/
def Flush (s : List Char) : Prop := ∀ c ∈ s.head?, isBlank c = false

theorem flush_nil : Flush [] := fun _ h => nomatch h

theorem flush_cons_iff {c : Char} {s : List Char} : Flush (c :: s) ↔ isBlank c = false := by
  simp [Flush]

instance : DecidablePred Flush
  | [] => isTrue flush_nil
  | c :: _ => decidable_of_iff (isBlank c = false) flush_cons_iff.symm

/-- Reads a pattern from left to right, with as much white space as there is in each gap. -/
def opening? : List Item → List Char → Option (List Char)
  | [], s => some s
  | .word w :: ps, s => after? w.toList s >>= opening? ps
  | .gap :: ps, s => blanks? s >>= opening? ps

/-- After each gap comes what does not begin with white space: a word, or the rest. -/
def Guarded : List Item → List Char → Prop
  | [], _ => True
  | .word _ :: ps, rest => Guarded ps rest
  | [.gap], rest => Flush rest
  | .gap :: .word w :: ps, rest => w.toList ≠ [] ∧ Flush w.toList ∧ Guarded ps rest
  | .gap :: .gap :: _, _ => False

theorem blanks?_eq_some_iff : blanks? s = some t ↔
    ∃ g, g ≠ [] ∧ (∀ c ∈ g, isBlank c = true) ∧ Flush t ∧ s = g ++ t := by
  constructor
  · intro h
    cases s with
    | nil => cases h
    | cons c s =>
      rw [blanks?, Option.ite_none_right_eq_some] at h
      obtain ⟨hc, ht⟩ := h
      refine ⟨c :: s.takeWhile isBlank, List.cons_ne_nil _ _, ?_, ?_, ?_⟩
      · exact List.forall_mem_cons.mpr ⟨hc, fun d hd => List.mem_takeWhile_imp hd⟩
      · rw [← Option.some.inj ht]
        exact head?_trimLeft s
      · rw [List.cons_append, ← Option.some.inj ht, List.takeWhile_append_dropWhile]
  · rintro ⟨g, hn, hb, ht, rfl⟩
    obtain ⟨c, g, rfl⟩ := List.exists_cons_of_ne_nil hn
    obtain ⟨hc, hg⟩ := List.forall_mem_cons.mp hb
    rw [List.cons_append, blanks?, if_pos hc, (run_append hg ht).2]

theorem flush_of_begins (h : Begins ps t rest) (hg : Guarded (.gap :: ps) rest) : Flush t := by
  cases h with
  | nil => exact hg
  | @word w ps s _ h =>
    obtain ⟨hn, hw, -⟩ := hg
    obtain ⟨c, cs, hc⟩ := List.exists_cons_of_ne_nil hn
    rw [hc] at hw ⊢
    exact hw
  | gap => exact hg.elim

theorem Guarded.tail {i : Item} (h : Guarded (i :: ps) rest) : Guarded ps rest := by
  cases i with
  | word w => exact h
  | gap =>
    rcases ps with _ | ⟨_ | _, ps⟩
    · trivial
    · exact h.2.2
    · exact h.elim

/-- Reading from left to right finds how a text begins with a pattern. -/
theorem opening?_eq_some_iff (hg : Guarded ps rest) :
    opening? ps s = some rest ↔ Begins ps s rest := by
  induction ps generalizing s with
  | nil =>
    rw [opening?, Option.some.injEq]
    constructor
    · rintro rfl
      exact .nil
    · rintro ⟨⟩
      rfl
  | cons i ps ih =>
    cases i with
    | word w =>
      simp only [opening?, Option.bind_eq_bind, Option.bind_eq_some_iff, after?_eq_some_iff,
        ih hg.tail]
      constructor
      · rintro ⟨t, rfl, h⟩
        exact .word h
      · rintro ⟨⟩
        exact ⟨_, rfl, ‹_›⟩
    | gap =>
      simp only [opening?, Option.bind_eq_bind, Option.bind_eq_some_iff, blanks?_eq_some_iff,
        ih hg.tail]
      constructor
      · rintro ⟨t, ⟨g, hn, hb, -, rfl⟩, h⟩
        exact .gap hn hb h
      · intro h
        cases h with
        | gap hn hb h => exact ⟨_, ⟨_, hn, hb, flush_of_begins h hg, rfl⟩, h⟩

/-! ## Runs -/

/-- The text begins with a whole run of characters that satisfy `p`: at least one, and none follows. -/
structure RunAt (p : Char → Bool) (s w rest : List Char) : Prop where
  eq : s = w ++ rest
  ne_nil : w ≠ []
  all : ∀ c ∈ w, p c = true
  stop : ∀ c ∈ rest.head?, p c = false

theorem run?_eq_some_iff : run? p s = some (w, rest) ↔ RunAt p s w rest := by
  constructor
  · intro h
    unfold run? at h
    split at h
    · cases h
    · next c cs hw =>
      obtain ⟨rfl, rfl⟩ := Prod.mk.inj (Option.some.inj h)
      refine ⟨?_, List.cons_ne_nil _ _, fun d hd => List.mem_takeWhile_imp (hw ▸ hd), ?_⟩
      · rw [← hw, List.takeWhile_append_dropWhile]
      · intro d hd
        have := List.head?_dropWhile_not p s
        rw [hd] at this
        exact this
  · rintro ⟨rfl, hn, ha, hs⟩
    obtain ⟨taken, left⟩ := run_append ha hs
    obtain ⟨c, w, rfl⟩ := List.exists_cons_of_ne_nil hn
    rw [run?, taken, left]

theorem run?_iff : run? p s = some (w, rest) ↔
    (∃ c ∈ s.head?, p c = true) ∧ w = s.takeWhile p ∧ rest = s.dropWhile p := by
  rw [run?_eq_some_iff]
  constructor
  · rintro ⟨rfl, hn, ha, hs⟩
    obtain ⟨taken, left⟩ := run_append ha hs
    obtain ⟨c, w, rfl⟩ := List.exists_cons_of_ne_nil hn
    exact ⟨⟨c, rfl, ha c List.mem_cons_self⟩, taken.symm, left.symm⟩
  · rintro ⟨⟨c, hc, hp⟩, rfl, rfl⟩
    obtain ⟨s, rfl⟩ := List.head?_eq_some_iff.mp hc
    refine run?_eq_some_iff.mp ?_
    rw [run?, List.takeWhile_cons_of_pos hp]

/-! ## Places -/

/-- The first end of the text that satisfies `P`: every other one is further to the right. -/
structure First (P : List Char → Prop) (s t : List Char) : Prop where
  suffix : t <:+ s
  holds : P t
  first : ∀ u, u <:+ s → P u → u <:+ t

namespace First

variable {P : List Char → Prop}

theorem unique (h : First P s t) (h' : First P s u) : t = u :=
  (h'.first t h.suffix h.holds).eq_of_length_le (h.first u h'.suffix h'.holds).length_le

theorem self (h : P s) : First P s s := ⟨List.suffix_refl s, h, fun _ hu _ => hu⟩

theorem cons_iff (h : ¬ P (c :: s)) : First P (c :: s) t ↔ First P s t := by
  have inner {u : List Char} (hu : u <:+ c :: s) (hp : P u) : u <:+ s :=
    (List.suffix_cons_iff.mp hu).resolve_left fun he => h (he ▸ hp)
  constructor
  · exact fun ⟨hs, hp, hf⟩ => ⟨inner hs hp, hp, fun u hu => hf u (hu.trans (List.suffix_cons c s))⟩
  · exact fun ⟨hs, hp, hf⟩ =>
      ⟨hs.trans (List.suffix_cons c s), hp, fun u hu hpu => hf u (inner hu hpu) hpu⟩

end First

/-- A search finds what its recogniser finds at the first place where that succeeds. -/
theorem search_eq_some_iff {f : List Char → Option α} {a : α} :
    search f s = some a ↔ ∃ t, First (fun t => f t ≠ none) s t ∧ f t = some a := by
  induction s with
  | nil =>
    constructor
    · intro h
      have hf : f [] = some a := h
      exact ⟨[], .self (by simp [hf]), hf⟩
    · rintro ⟨t, ht, h⟩
      rwa [List.suffix_nil.mp ht.suffix] at h
  | cons c s ih =>
    cases h : f (c :: s) with
    | none =>
      have skip {t : List Char} :
          First (fun t => f t ≠ none) (c :: s) t ↔ First (fun t => f t ≠ none) s t :=
        First.cons_iff (by simp [h])
      simp only [search, h, ih, skip]
    | some b =>
      have here : First (fun t => f t ≠ none) (c :: s) (c :: s) := .self (by simp [h])
      rw [search_of_some h]
      constructor
      · exact fun hb => ⟨c :: s, here, h.trans hb⟩
      · rintro ⟨t, ht, hb⟩
        rwa [← h, here.unique ht]

section
variable {f : List Char → Option α} {P : List Char → Prop} (hf : ∀ t, P t ↔ ∃ a, f t = some a)
include hf

theorem search_eq_none_iff_of : search f s = none ↔ ∀ t, t <:+ s → ¬ P t := by
  rw [search_eq_none_iff]
  simp only [hf, not_exists, Option.eq_none_iff_forall_ne_some, ne_eq]

theorem search_eq_some_iff_of {a : α} :
    search f s = some a ↔ ∃ t, First P s t ∧ f t = some a := by
  have same : (fun t => f t ≠ none) = P := by
    funext t
    simp only [hf, ne_eq, Option.ne_none_iff_exists']
  rw [search_eq_some_iff, same]

end

end BlockSketch.Text
