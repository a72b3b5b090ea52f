import BlockSketch.Text.Blank
import BlockSketch.Text.Digit
import BlockSketch.Text.Word

/-!
# Reading along a text

A recogniser looks at the front of a text and, if it finds what it looks for, returns it with the
text that follows.  `search` applies one at the leftmost place where it succeeds.
-/

namespace BlockSketch.Text

/-- What follows the word `w`, if the text begins with it. -/
def after? : List Char → List Char → Option (List Char)
  | [], s => some s
  | _ :: _, [] => none
  | w :: ws, c :: s => if w = c then after? ws s else none

/-- What follows a run of one or more blanks. -/
def blanks? : List Char → Option (List Char)
  | [] => none
  | c :: s => if isBlank c then some (s.dropWhile isBlank) else none

/-- The characters at the front that satisfy `p`, at least one, and what follows them. -/
def run? (p : Char → Bool) (s : List Char) : Option (List Char × List Char) :=
  match s.takeWhile p with
  | [] => none
  | c :: cs => some (c :: cs, s.dropWhile p)

/-- The first result of `f`, trying every place from the left. -/
def search {α : Type} (f : List Char → Option α) : List Char → Option α
  | [] => f []
  | c :: s =>
    match f (c :: s) with
    | some a => some a
    | none => search f s

/-- Whether the word occurs anywhere in the text. -/
def occurs (w s : List Char) : Bool := (search (after? w) s).isSome

theorem after?_append (w s : List Char) : after? w (w ++ s) = some s := by
  induction w with
  | nil => rfl
  | cons c w ih => simp [after?, ih]

theorem after?_eq_some_iff {w s r : List Char} : after? w s = some r ↔ s = w ++ r := by
  induction w generalizing s with
  | nil => simp [after?, eq_comm]
  | cons c w ih =>
    cases s with
    | nil => simp [after?]
    | cons d s =>
      by_cases h : c = d
      · simp [after?, h, ih]
      · simp [after?, h, Ne.symm h]

/-- A recogniser that succeeds at the front decides the search. -/
theorem search_of_some {α : Type} {f : List Char → Option α} {s : List Char} {a : α}
    (h : f s = some a) : search f s = some a := by
  cases s with
  | nil => simpa [search] using h
  | cons c s => simp [search, h]

/-- What a search finds is found at some place. -/
theorem exists_suffix_of_search {α : Type} {f : List Char → Option α} {s : List Char} {a : α}
    (h : search f s = some a) : ∃ t, t <:+ s ∧ f t = some a := by
  induction s with
  | nil => exact ⟨[], List.suffix_refl _, h⟩
  | cons c s ih =>
    unfold search at h
    split at h
    · next b hb => exact ⟨_, List.suffix_refl _, hb.trans h⟩
    · obtain ⟨t, ht, hf⟩ := ih h
      exact ⟨t, ht.trans (List.suffix_cons c s), hf⟩

/-- A search fails exactly when the recogniser fails at every place. -/
theorem search_eq_none_iff {α : Type} {f : List Char → Option α} {s : List Char} :
    search f s = none ↔ ∀ t, t <:+ s → f t = none := by
  induction s with
  | nil => simp [search]
  | cons c s ih =>
    rw [search]
    split
    · next a h =>
      simp only [reduceCtorEq, false_iff]
      intro hall
      simp [hall _ (List.suffix_refl _)] at h
    · next h =>
      rw [ih]
      constructor
      · intro hall t ht
        rcases List.suffix_cons_iff.mp ht with rfl | ht
        · exact h
        · exact hall t ht
      · exact fun hall t ht => hall t (ht.trans (List.suffix_cons c s))

end BlockSketch.Text
