import Mathlib.Data.List.Forall2

/-! # Successful outcomes

A computation that can fail succeeds exactly if all its parts do. A list is processed successfully
exactly if every element is, and the results stand in the same order.
-/

namespace BlockSketch

variable {ε α β : Type}

theorem bind_eq_ok_iff {x : Except ε α} {f : α → Except ε β} {r : β} :
    (x >>= f) = .ok r ↔ ∃ a, x = .ok a ∧ f a = .ok r := by
  cases x <;> simp [bind, Except.bind]

theorem bind_eq_error_iff {x : Except ε α} {f : α → Except ε β} {e : ε} :
    (x >>= f) = .error e ↔ x = .error e ∨ ∃ a, x = .ok a ∧ f a = .error e := by
  cases x <;> simp [bind, Except.bind]

theorem pure_eq_ok_iff {a r : α} : (pure a : Except ε α) = .ok r ↔ a = r := by
  simp [pure, Except.pure]

theorem map_eq_ok_iff {x : Except ε α} {f : α → β} {r : β} :
    x.map f = .ok r ↔ ∃ a, x = .ok a ∧ f a = r := by
  cases x <;> simp [Except.map]

theorem exists_ok_of_isOk {x : Except ε α} (h : x.isOk = true) : ∃ r, x = .ok r := by
  cases x with
  | error e => cases h
  | ok r => exact ⟨r, rfl⟩

theorem exists_ok_of_any {x : Except ε α} {P : α → Bool} (h : x.toOption.any P = true) :
    ∃ a, x = .ok a ∧ P a = true := by
  cases x with
  | error e => cases h
  | ok a => exact ⟨a, rfl, h⟩

theorem eq_ok_of_toOption {x : Except ε α} {a : α} (h : x.toOption = some a) : x = .ok a := by
  cases x with
  | error e => cases h
  | ok b => exact congrArg Except.ok (Option.some.inj h)

theorem mapError_eq_ok_iff {ε' : Type} {x : Except ε α} {f : ε → ε'} {r : α} :
    x.mapError f = .ok r ↔ x = .ok r := by
  cases x <;> simp [Except.mapError]

theorem mapError_eq_error_iff {ε' : Type} {x : Except ε α} {f : ε → ε'} {e : ε'} :
    x.mapError f = .error e ↔ ∃ e', x = .error e' ∧ f e' = e := by
  cases x <;> simp [Except.mapError]

theorem map_mapError {ε' : Type} (x : Except ε α) (f : ε → ε') (g : α → β) :
    (x.mapError f).map g = (x.map g).mapError f := by
  cases x <;> rfl

theorem mapM_eq_ok_iff {f : α → Except ε β} {xs : List α} {ys : List β} :
    xs.mapM f = .ok ys ↔ List.Forall₂ (fun x y => f x = .ok y) xs ys := by
  induction xs generalizing ys with
  | nil => rw [List.mapM_nil, pure_eq_ok_iff, List.forall₂_nil_left_iff, eq_comm]
  | cons x xs ih =>
    simp only [List.mapM_cons, bind_eq_ok_iff, pure_eq_ok_iff, ih, List.forall₂_cons_left_iff]
    constructor
    · rintro ⟨y, hy, zs, hz, rfl⟩
      exact ⟨y, zs, hy, hz, rfl⟩
    · rintro ⟨y, zs, hy, hz, rfl⟩
      exact ⟨y, hy, zs, hz, rfl⟩

theorem mapM_append_eq_ok_iff {f : α → Except ε β} {xs ys : List α} {zs : List β} :
    (xs ++ ys).mapM f = .ok zs ↔
      ∃ us vs, xs.mapM f = .ok us ∧ ys.mapM f = .ok vs ∧ us ++ vs = zs := by
  simp only [List.mapM_append, bind_eq_ok_iff, pure_eq_ok_iff]
  constructor
  · rintro ⟨us, hu, vs, hv, h⟩
    exact ⟨us, vs, hu, hv, h⟩
  · rintro ⟨us, vs, hu, hv, h⟩
    exact ⟨us, hu, vs, hv, h⟩

theorem exists_of_forall₂ {R : α → β → Prop} {xs : List α} {ys : List β}
    (h : List.Forall₂ R xs ys) {x : α} (hx : x ∈ xs) : ∃ y ∈ ys, R x y := by
  induction h with
  | nil => cases hx
  | @cons z y _ _ hr _ ih =>
    rcases List.mem_cons.mp hx with rfl | hx
    · exact ⟨y, List.mem_cons_self, hr⟩
    · obtain ⟨w, hw, hr⟩ := ih hx
      exact ⟨w, List.mem_cons_of_mem _ hw, hr⟩

theorem forall_mem_iff_of_forall₂ {R : α → β → Prop} {P : α → Prop} {Q : β → Prop} {xs : List α}
    {ys : List β} (h : List.Forall₂ R xs ys) (hr : ∀ x ∈ xs, ∀ y, R x y → (Q y ↔ P x)) :
    (∀ y ∈ ys, Q y) ↔ ∀ x ∈ xs, P x := by
  induction h with
  | nil => exact iff_of_true nofun nofun
  | cons hxy _ ih =>
    obtain ⟨hx, hxs⟩ := List.forall_mem_cons.mp hr
    rw [List.forall_mem_cons, List.forall_mem_cons, hx _ hxy, ih hxs]

/-- A property of all results in a list of lists, element by element. -/
theorem forall_mem_flatten_iff {R : α → List β → Prop} {P : α → Prop} {Q : β → Prop} {xs : List α}
    {yss : List (List β)} (h : List.Forall₂ R xs yss)
    (hr : ∀ x ∈ xs, ∀ ys, R x ys → ((∀ y ∈ ys, Q y) ↔ P x)) :
    (∀ y ∈ yss.flatten, Q y) ↔ ∀ x ∈ xs, P x := by
  rw [← forall_mem_iff_of_forall₂ h hr]
  simp only [List.mem_flatten]
  exact ⟨fun h ys hys y hy => h y ⟨ys, hys, hy⟩, fun h y ⟨ys, hys, hy⟩ => h ys hys y hy⟩

/-- Every element of a list that is processed successfully has its result. -/
theorem exists_ok_of_mapM {f : α → Except ε β} {xs : List α} {ys : List β}
    (h : xs.mapM f = .ok ys) {x : α} (hx : x ∈ xs) : ∃ y ∈ ys, f x = .ok y :=
  exists_of_forall₂ (mapM_eq_ok_iff.mp h) hx

/-- If a list cannot be processed, one of its elements cannot. -/
theorem exists_error_of_mapM {f : α → Except ε β} {xs : List α} {e : ε}
    (h : xs.mapM f = .error e) : ∃ x ∈ xs, f x = .error e := by
  induction xs with
  | nil => cases h
  | cons x xs ih =>
    rw [List.mapM_cons] at h
    rcases bind_eq_error_iff.mp h with h | ⟨y, -, h⟩
    · exact ⟨x, List.mem_cons_self, h⟩
    · rcases bind_eq_error_iff.mp h with h | ⟨ys, -, h⟩
      · obtain ⟨z, hz, h⟩ := ih h
        exact ⟨z, List.mem_cons_of_mem _ hz, h⟩
      · cases h

/-- Every result comes from an element. -/
theorem exists_of_mem_mapM {f : α → Except ε β} {xs : List α} {ys : List β}
    (h : xs.mapM f = .ok ys) {y : β} (hy : y ∈ ys) : ∃ x ∈ xs, f x = .ok y :=
  exists_of_forall₂ (mapM_eq_ok_iff.mp h).flip hy

/-- Lists that are processed one by one are processed as one list. -/
theorem mapM_flatMap_eq_ok {γ : Type} {f : α → List β} {g : β → Except ε γ} {xs : List α}
    {parts : List (List γ)} (h : xs.mapM (fun x => (f x).mapM g) = .ok parts) :
    (xs.flatMap f).mapM g = .ok parts.flatten := by
  induction xs generalizing parts with
  | nil =>
    obtain rfl := pure_eq_ok_iff.mp h
    rfl
  | cons x xs ih =>
    simp only [List.mapM_cons, bind_eq_ok_iff, pure_eq_ok_iff] at h
    obtain ⟨us, hu, parts, hp, rfl⟩ := h
    rw [List.flatMap_cons, mapM_append_eq_ok_iff]
    exact ⟨us, parts.flatten, hu, ih hp, rfl⟩

theorem mapM_eq_some {f : α → Option β} {xs : List α} {ys : List β}
    (h : List.Forall₂ (fun x y => f x = some y) xs ys) : xs.mapM f = some ys := by
  induction h with
  | nil => rfl
  | cons hx _ ih => simp [List.mapM_cons, hx, ih]

/-! ## Runs -/

/-- A run of elements ends where the first other one stands. -/
theorem run_append {p : α → Bool} {xs rest : List α} (hx : ∀ x ∈ xs, p x = true)
    (hr : ∀ y ∈ rest.head?, p y = false) :
    (xs ++ rest).takeWhile p = xs ∧ (xs ++ rest).dropWhile p = rest := by
  have stop : rest.takeWhile p = [] ∧ rest.dropWhile p = rest := by
    cases rest with
    | nil => exact ⟨rfl, rfl⟩
    | cons y rest => simp [hr y rfl]
  rw [List.takeWhile_append_of_pos hx, List.dropWhile_append_of_pos hx, stop.1, stop.2,
    List.append_nil]
  exact ⟨rfl, rfl⟩

/-! ## Conditions on results -/

/-- Whatever the computation results in satisfies `P`. -/
def Yields (P : α → Prop) (x : Except ε α) : Prop := ∀ r, x = .ok r → P r

namespace Yields

theorem ok {P : α → Prop} {a : α} (h : P a) : Yields P (.ok a : Except ε α) := by
  rintro _ ⟨⟩
  exact h

theorem bind {P : β → Prop} {x : Except ε α} {f : α → Except ε β} (h : ∀ a, Yields P (f a)) :
    Yields P (x >>= f) := by
  intro r hr
  obtain ⟨a, -, hr⟩ := bind_eq_ok_iff.mp hr
  exact h a r hr

end Yields

/-! ## Conditions of success -/

/-- The computation succeeds exactly if `L` holds, and then its result satisfies `P`. -/
structure Succeeds (x : Except ε α) (L : Prop) (P : α → Prop) : Prop where
  exists_iff : (∃ r, x = .ok r) ↔ L
  result : ∀ r, x = .ok r → P r

namespace Succeeds

variable {x : Except ε α} {f : α → Except ε β} {L M : Prop} {P P' : α → Prop} {Q : β → Prop}

protected theorem pure {a : α} (h : P a) : Succeeds (pure a : Except ε α) True P where
  exists_iff := iff_true_intro ⟨a, rfl⟩
  result r hr := by rwa [← pure_eq_ok_iff.mp hr]

protected theorem error {e : ε} : Succeeds (.error e : Except ε α) False P where
  exists_iff := by simp
  result r hr := by cases hr

theorem congr (h : Succeeds x L P) (hm : L ↔ M) : Succeeds x M P :=
  ⟨h.exists_iff.trans hm, h.result⟩

theorem mono (h : Succeeds x L P) (hp : ∀ r, P r → P' r) : Succeeds x L P' :=
  ⟨h.exists_iff, fun r hr => hp r (h.result r hr)⟩

protected theorem bind (hx : Succeeds x L P) (hf : ∀ a, P a → Succeeds (f a) M Q) :
    Succeeds (x >>= f) (L ∧ M) Q where
  exists_iff := by
    simp only [bind_eq_ok_iff]
    constructor
    · rintro ⟨r, a, ha, hr⟩
      exact ⟨hx.exists_iff.mp ⟨a, ha⟩, (hf a (hx.result a ha)).exists_iff.mp ⟨r, hr⟩⟩
    · rintro ⟨hl, hm⟩
      obtain ⟨a, ha⟩ := hx.exists_iff.mpr hl
      obtain ⟨r, hr⟩ := (hf a (hx.result a ha)).exists_iff.mpr hm
      exact ⟨r, a, ha, hr⟩
  result r hr := by
    obtain ⟨a, ha, hr⟩ := bind_eq_ok_iff.mp hr
    exact (hf a (hx.result a ha)).result r hr

/-- Nothing can fail after the first step. -/
theorem bind_pure {g : α → β} (hx : Succeeds x L P) (hg : ∀ a, P a → Q (g a)) :
    Succeeds (x >>= fun a => Pure.pure (g a)) L Q :=
  (hx.bind fun a ha => .pure (hg a ha)).congr (by rw [and_true])

protected theorem map {g : α → β} (hx : Succeeds x L P) (hg : ∀ a, P a → Q (g a)) :
    Succeeds (x.map g) L Q := by
  have h : x.map g = x >>= fun a => Pure.pure (g a) := by cases x <;> rfl
  rw [h]
  exact hx.bind_pure hg

theorem mapM {f : α → Except ε β} {xs : List α} {L : α → Prop} {P : α → β → Prop}
    (h : ∀ x ∈ xs, Succeeds (f x) (L x) (P x)) :
    Succeeds (xs.mapM f) (∀ x ∈ xs, L x) (List.Forall₂ P xs) := by
  induction xs with
  | nil =>
    rw [List.mapM_nil]
    exact (Succeeds.pure .nil).congr (by simp)
  | cons x xs ih =>
    obtain ⟨hx, hxs⟩ := List.forall_mem_cons.mp h
    rw [List.mapM_cons]
    exact (hx.bind fun y hy => (ih hxs).bind_pure fun ys hys => .cons hy hys).congr
      List.forall_mem_cons.symm

end Succeeds

theorem exists_mapM {f : α → Except ε β} {xs : List α} (h : ∀ x ∈ xs, ∃ y, f x = .ok y) :
    ∃ ys, xs.mapM f = .ok ys := by
  have each : ∀ x ∈ xs, Succeeds (f x) True fun _ => True :=
    fun x hx => ⟨iff_true_intro (h x hx), fun _ _ => trivial⟩
  exact (Succeeds.mapM each).exists_iff.mpr fun _ _ => trivial

end BlockSketch
