import BlockSketch.Proofs.Characters
import BlockSketch.Text.Scan
import Mathlib.Data.List.Chain
import Mathlib.Data.List.Infix

/-! # Searching among tokens

A text of tokens with single spaces between them is searched token by token: a recogniser that needs
a keyword and a blank after it can only succeed where a token ends with the keyword.
-/

namespace BlockSketch.Text

variable {α : Type} {f : List Char → Option α} {keys : List (List Char)}
  {s t u w rest : List Char} {ts us : List (List Char)} {b c : Char}

/-- The text holds no blank. -/
def Solid (t : List Char) : Prop := ∀ c ∈ t, isBlank c = false

instance : DecidablePred Solid := fun t => inferInstanceAs (Decidable (∀ c ∈ t, isBlank c = false))

/-- The tokens, each after a space. -/
def spaced (ts : List (List Char)) : List Char := ts.flatMap (' ' :: ·)

/-- The tokens with single spaces between them. -/
def joined : List (List Char) → List Char
  | [] => []
  | t :: ts => t ++ spaced ts

@[simp] theorem spaced_nil : spaced [] = [] := rfl

@[simp] theorem spaced_cons : spaced (t :: ts) = ' ' :: (t ++ spaced ts) := by simp [spaced]

@[simp] theorem spaced_append : spaced (ts ++ us) = spaced ts ++ spaced us := by simp [spaced]

@[simp] theorem joined_cons : joined (t :: ts) = t ++ spaced ts := rfl

/-- The recogniser needs one of the keywords, which are in lower case, and a blank after it. -/
structure Keyed (keys : List (List Char)) (f : List Char → Option α) : Prop where
  ne_nil : ∀ k ∈ keys, k ≠ []
  lower : ∀ k ∈ keys, ∀ c ∈ k, c.isLower = true
  found : ∀ s, f s ≠ none → ∃ k ∈ keys, ∃ b r, isBlank b = true ∧ s = k ++ b :: r

/-- The recogniser fails at every end of the token `t` if the token `u` comes next. -/
def Passed (keys : List (List Char)) (f : List Char → Option α) (t u : List Char) : Prop :=
  ∀ k ∈ keys, k <:+ t → ∀ r, f (k ++ ' ' :: (u ++ r)) = none

/-- The token ends with none of the keywords. -/
def Clear (keys : List (List Char)) (t : List Char) : Prop := ∀ k ∈ keys, ¬ k <:+ t

instance : Decidable (Clear keys t) := inferInstanceAs (Decidable (∀ k ∈ keys, ¬ k <:+ t))

theorem Clear.passed (h : Clear keys t) : Passed keys f t u := fun k hk hs => absurd hs (h k hk)

theorem Clear.mono (h : Clear us t) (hk : keys ⊆ us) : Clear keys t :=
  fun k hm => h k (hk hm)

theorem isChain_append_of_clear (h : ∀ t ∈ us, Clear keys t) (ht : ts.IsChain (Passed keys f)) :
    (us ++ ts).IsChain (Passed keys f) := by
  induction us with
  | nil => exact ht
  | cons u us ih =>
    obtain ⟨hu, hus⟩ := List.forall_mem_cons.mp h
    exact List.isChain_cons.mpr ⟨fun _ _ => hu.passed, ih hus⟩

theorem solid_of_isPlain (h : ∀ c ∈ t, isPlain c = true) : Solid t :=
  fun c hc => not_isBlank_of_isPlain (h c hc)

/-! ## Searching -/

/-- A search passes over what no place of holds a result. -/
theorem search_append (h : ∀ u, u ≠ [] → u <:+ t → f (u ++ rest) = none) :
    search f (t ++ rest) = search f rest := by
  induction t with
  | nil => rfl
  | cons c t ih =>
    have hc := h (c :: t) (List.cons_ne_nil _ _) (List.suffix_refl _)
    rw [List.cons_append] at hc ⊢
    rw [search, hc]
    exact ih fun u hu hs => h u hu (hs.trans (List.suffix_cons _ _))

theorem solid_prefix_unique (hs : Solid s) (ht : Solid t) (hb : isBlank b = true)
    (hc : isBlank c = true) (h : s ++ b :: rest = t ++ c :: w) : s = t := by
  have front {u : List Char} {d : Char} {v : List Char} (hu : Solid u) (hd : isBlank d = true) :
      (u ++ d :: v).takeWhile (fun c => !isBlank c) = u := by
    rw [List.takeWhile_append_of_pos fun c hc => by simp [hu c hc],
      List.takeWhile_cons_of_neg (by simpa using hd), List.append_nil]
  rw [← front hs hb, h, front ht hc]

namespace Keyed

variable (hf : Keyed keys f)
include hf

theorem solid (hk : w ∈ keys) : Solid w :=
  solid_of_isPlain fun c hc => by simp [isPlain, hf.lower w hk c hc]

/-- A first token is passed over unless it ends with a keyword that leads to a result. -/
theorem search_token (ht : Solid t) (h : Passed keys f t u) :
    search f (t ++ ' ' :: (u ++ rest)) = search f (u ++ rest) := by
  have pass : search f (t ++ ' ' :: (u ++ rest)) = search f (' ' :: (u ++ rest)) := by
    refine search_append fun v hv hs => ?_
    by_contra hne
    obtain ⟨k, hm, c, r, hc, he⟩ := hf.found _ hne
    obtain rfl := solid_prefix_unique (fun c hc => ht c (hs.subset hc)) (hf.solid hm)
      isBlank_space hc he
    exact hne (h v hm hs rest)
  rw [pass, search]
  split
  · next a ha =>
    obtain ⟨k, hm, c, r, -, he⟩ := hf.found (' ' :: (u ++ rest)) (by simp [ha])
    obtain ⟨d, k, rfl⟩ := List.exists_cons_of_ne_nil (hf.ne_nil k hm)
    obtain rfl := (List.cons.inj he).1
    have := hf.solid hm ' ' List.mem_cons_self
    simp [isBlank_space] at this
  · rfl

/-- Tokens that end with none of the keywords are passed over. -/
theorem search_clear (hs : ∀ t ∈ us, Solid t) (hc : ∀ t ∈ us, Clear keys t) :
    search f (joined (us ++ u :: ts)) = search f (joined (u :: ts)) := by
  induction us with
  | nil => rfl
  | cons t us ih =>
    obtain ⟨hst, hs⟩ := List.forall_mem_cons.mp hs
    obtain ⟨hct, hc⟩ := List.forall_mem_cons.mp hc
    obtain ⟨v, vs, he⟩ := List.exists_cons_of_ne_nil (show us ++ u :: ts ≠ [] by simp)
    rw [List.cons_append, he, joined_cons, spaced_cons, hf.search_token hst hct.passed,
      ← joined_cons, ← he, ih hs hc]

/-- Nothing is found in a last token. -/
theorem search_last (ht : Solid t) : search f t = none := by
  refine search_eq_none_iff.mpr fun u hu => ?_
  by_contra hne
  obtain ⟨k, -, c, r, hc, rfl⟩ := hf.found _ hne
  have := ht c (hu.subset (by simp))
  simp [hc] at this

/-- Nothing is found if all tokens but the last are passed over. -/
theorem search_joined (hs : ∀ t ∈ ts, Solid t) (h : ts.IsChain (Passed keys f)) :
    search f (joined ts) = none := by
  induction h with
  | nil => exact hf.search_last (t := []) (by simp [Solid])
  | singleton t => simpa using hf.search_last (hs t (List.mem_singleton_self t))
  | cons_cons hp _ ih =>
    rw [joined_cons, spaced_cons, hf.search_token (hs _ List.mem_cons_self) hp]
    exact ih fun v hv => hs v (List.mem_cons_of_mem _ hv)

end Keyed

/-! ## Characters of joined tokens -/

theorem mem_joined (h : c ∈ joined ts) : c = ' ' ∨ ∃ t ∈ ts, c ∈ t := by
  cases ts with
  | nil => exact absurd h List.not_mem_nil
  | cons t ts =>
    rcases List.mem_append.mp h with h | h
    · exact .inr ⟨t, List.mem_cons_self, h⟩
    · obtain ⟨u, hu, h⟩ := List.mem_flatMap.mp h
      exact (List.mem_cons.mp h).imp_right fun h => ⟨u, List.mem_cons_of_mem _ hu, h⟩

section
variable (hs : ∀ t ∈ ts, t ≠ [] ∧ Solid t)
include hs

theorem joined_ne_nil (hn : ts ≠ []) : joined ts ≠ [] := by
  obtain ⟨t, ts, rfl⟩ := List.exists_cons_of_ne_nil hn
  simp [(hs t List.mem_cons_self).1]

theorem not_isBlank_head?_joined : ∀ c ∈ (joined ts).head?, isBlank c = false := by
  cases ts with
  | nil => simp [joined]
  | cons t ts =>
    obtain ⟨hn, ht⟩ := hs t List.mem_cons_self
    obtain ⟨d, t, rfl⟩ := List.exists_cons_of_ne_nil hn
    simpa using ht d List.mem_cons_self

theorem not_isBlank_getLast?_joined : ∀ c ∈ (joined ts).getLast?, isBlank c = false := by
  induction ts with
  | nil => simp [joined]
  | cons t ts ih =>
    obtain ⟨ht, hs⟩ := List.forall_mem_cons.mp hs
    cases ts with
    | nil => exact fun c hc => ht.2 c (List.mem_of_getLast? (by simpa using hc))
    | cons u ts =>
      have he : joined (t :: u :: ts) = t ++ [' '] ++ joined (u :: ts) := by simp
      rw [he, List.getLast?_append_of_ne_nil _ (joined_ne_nil hs (List.cons_ne_nil _ _))]
      exact ih hs

end

/-! ## Occurrences -/

theorem occurs_iff : occurs w s = true ↔ w <:+: s := by
  rw [occurs, Option.isSome_iff_ne_none, ne_eq, search_eq_none_iff, List.infix_iff_prefix_suffix]
  constructor
  · intro h
    by_contra hw
    refine h fun t ht => Option.eq_none_iff_forall_ne_some.mpr fun r hr => hw ⟨t, ?_, ht⟩
    exact after?_eq_some_iff.mp hr ▸ List.prefix_append w r
  · rintro ⟨t, ⟨r, rfl⟩, ht⟩ h
    simpa [after?_append] using h _ ht

/-- A word without the character `c` occurs before it or after it. -/
theorem infix_append_cons (hw : c ∉ w) (h : w <:+: t ++ c :: rest) : w <:+: t ∨ w <:+: rest := by
  have start {v : List Char} (hv : v ⊆ w) (h : v <+: c :: rest) : v = [] := by
    obtain rfl | ⟨v, rfl, -⟩ := List.prefix_cons_iff.mp h
    · rfl
    · exact absurd (hv List.mem_cons_self) hw
  rcases List.infix_append_iff.mp h with h | h | ⟨l, r, rfl, hl, hr⟩
  · exact .inl h
  · rcases List.infix_cons_iff.mp h with h | h
    · exact .inl (start (List.Subset.refl w) h ▸ List.nil_infix)
    · exact .inr h
  · rw [start (List.subset_append_right l r) hr, List.append_nil]
    exact .inl hl.isInfix

theorem infix_joined (hw : ' ' ∉ w) (hn : w ≠ []) (h : w <:+: joined ts) :
    ∃ t ∈ ts, w <:+: t := by
  induction ts with
  | nil => exact absurd (List.infix_nil.mp h) hn
  | cons t ts ih =>
    cases ts with
    | nil => exact ⟨t, List.mem_cons_self, by simpa using h⟩
    | cons u ts =>
      rw [joined_cons, spaced_cons] at h
      rcases infix_append_cons hw h with h | h
      · exact ⟨t, List.mem_cons_self, h⟩
      · obtain ⟨v, hv, h⟩ := ih h
        exact ⟨v, List.mem_cons_of_mem _ hv, h⟩

end BlockSketch.Text
