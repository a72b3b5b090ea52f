import BlockSketch.Proofs.Outcome
import BlockSketch.Prompt.Actions

/-! # Repeat directives

While a prompt is read, a count waits for the next action. Which action it reaches does not depend
on that state: an action is repeated exactly if the last segment before it that says anything is a
directive with a count above one.
-/

namespace BlockSketch.Prompt

open Text

/-- The segment asks for the next action to be done `k` times. -/
def Directs (s : List Char) (k : Nat) : Prop :=
  ∃ ds, search repeatAt? s = some ds ∧ Numeral.ofDigits ds = .ok k

/-- The segment is no directive, and the rules make the action of it. -/
def Acts (s : List Char) (a : Action) : Prop :=
  search repeatAt? s = none ∧ ∃ r, sentence s = .ok (some (r, a))

/-- The segment is neither a directive nor an action. -/
def Silent (s : List Char) : Prop := (∀ k, ¬ Directs s k) ∧ ∀ a, ¬ Acts s a

/-- The segments of a prompt in lower case. -/
def spoken (prompt : String) : List (List Char) := (segments prompt.toList).map lower

variable {ss : List (List Char)} {s : List Char} {a b : Action} {i j k m n : Nat}

/-- The segment at place `j` is a directive with count `k`, and it is the last segment before place
`i` that is not silent. -/
def Arms (ss : List (List Char)) (j i k : Nat) : Prop :=
  j < i ∧ (∃ s, ss[j]? = some s ∧ Directs s k) ∧
    ∀ m s, j < m → m < i → ss[m]? = some s → Silent s

/-- The segment at place `i` is an action. -/
def ActsAt (ss : List (List Char)) (i : Nat) : Prop := ∃ s a, ss[i]? = some s ∧ Acts s a

/-- What the action segment at place `i` contributes. -/
def Entry (ss : List (List Char)) (i : Nat) (e : Action) : Prop :=
  ∃ s a, ss[i]? = some s ∧ Acts s a ∧
    ((∃ j k, Arms ss j i k ∧ 1 < k ∧ e = Action.repeating k a) ∨
      ((¬ ∃ j k, Arms ss j i k ∧ 1 < k) ∧ e = a))

/-! ## Clauses -/

theorem clause_directive_iff : clause s = .ok (.directive k) ↔ Directs s k := by
  unfold clause Directs
  cases h : search repeatAt? s with
  | some ds => simp [map_eq_ok_iff]
  | none =>
    simp only [bind_eq_ok_iff, reduceCtorEq, false_and, exists_false, iff_false, not_exists, not_and]
    rintro (_ | ⟨r, a⟩) - h <;> simp [pure, Except.pure] at h

theorem clause_action_iff : (∃ r, clause s = .ok (.action r a)) ↔ Acts s a := by
  unfold clause Acts
  cases h : search repeatAt? s with
  | some ds => simp [map_eq_ok_iff]
  | none =>
    simp only [bind_eq_ok_iff, true_and]
    constructor
    · rintro ⟨r, _ | ⟨r', a'⟩, hs, h⟩ <;> simp [pure, Except.pure] at h
      obtain ⟨rfl, rfl⟩ := h
      exact ⟨_, hs⟩
    · rintro ⟨r, hs⟩
      exact ⟨r, _, hs, rfl⟩

theorem Directs.unique (h : Directs s k) (h' : Directs s n) : k = n := by
  simpa using (clause_directive_iff.mpr h).symm.trans (clause_directive_iff.mpr h')

theorem Acts.unique (h : Acts s a) (h' : Acts s b) : a = b := by
  obtain ⟨-, r, hr⟩ := h
  obtain ⟨-, r', hr'⟩ := h'
  simpa using congrArg (Option.map Prod.snd) (Except.ok.inj (hr.symm.trans hr'))

theorem Acts.not_directs (h : Acts s a) : ¬ Directs s k := by
  rintro ⟨ds, hd, -⟩
  simp [h.1] at hd

theorem silent_of_unknown (h : clause s = .ok .unknown) : Silent s := by
  refine ⟨fun k hk => ?_, fun a ha => ?_⟩
  · simp [clause_directive_iff.mpr hk] at h
  · obtain ⟨r, hr⟩ := clause_action_iff.mpr ha
    simp [hr] at h

/-! ## The last directive -/

theorem arms_succ_iff (hs : ss[n]? = some s) :
    Arms ss j (n + 1) k ↔ (j = n ∧ Directs s k) ∨ (Arms ss j n k ∧ Silent s) := by
  constructor
  · rintro ⟨hj, hd, hq⟩
    rcases Nat.lt_succ_iff_lt_or_eq.mp hj with hlt | rfl
    · exact .inr ⟨⟨hlt, hd, fun m t hm hn => hq m t hm (by omega)⟩, hq n s hlt (by omega) hs⟩
    · obtain ⟨t, ht, hd⟩ := hd
      obtain rfl : s = t := by simpa [hs] using ht
      exact .inl ⟨rfl, hd⟩
  · rintro (⟨rfl, hd⟩ | ⟨⟨hj, hd, hq⟩, hs'⟩)
    · exact ⟨by omega, ⟨s, hs, hd⟩, fun m t hm hn => by omega⟩
    · refine ⟨by omega, hd, fun m t hm hn ht => ?_⟩
      rcases Nat.lt_succ_iff_lt_or_eq.mp hn with hlt | rfl
      · exact hq m t hm hlt ht
      · obtain rfl : s = t := by simpa [hs] using ht
        exact hs'

theorem Arms.unique (h : Arms ss j i k) (h' : Arms ss m i n) : j = m ∧ k = n := by
  obtain ⟨hj, ⟨s, hs, hd⟩, hq⟩ := h
  obtain ⟨hm, ⟨t, ht, hd'⟩, hq'⟩ := h'
  rcases Nat.lt_trichotomy j m with hlt | rfl | hlt
  · exact absurd hd' ((hq m t hlt hm ht).1 n)
  · obtain rfl : s = t := by simpa [hs] using ht
    exact ⟨rfl, hd.unique hd'⟩
  · exact absurd hd ((hq' j s hlt hj hs).1 k)

/-- A directive reaches one action at most: the next one. -/
theorem Arms.reaches_one (h : Arms ss m i k) (h' : Arms ss m j n)
    (hi : ActsAt ss i) (hj : ActsAt ss j) : i = j := by
  obtain ⟨s, a, hs, ha⟩ := hi
  obtain ⟨t, b, ht, hb⟩ := hj
  rcases Nat.lt_trichotomy i j with hlt | rfl | hlt
  · exact absurd ha ((h'.2.2 i s h.1 hlt hs).2 a)
  · rfl
  · exact absurd hb ((h.2.2 j t h'.1 hlt ht).2 b)

/-! ## The run -/

/-- The waiting count at place `i` is that of the directive that reaches so far, or one if there is
none. -/
def Pending (ss : List (List Char)) (i count : Nat) : Prop :=
  (∃ j, Arms ss j i count) ∨ (count = 1 ∧ ∀ j k, ¬ Arms ss j i k)

theorem pending_zero : Pending ss 0 1 := .inr ⟨rfl, fun _ _ h => absurd h.1 (Nat.not_lt_zero _)⟩

theorem pending_of_directs (hs : ss[n]? = some s) (hd : Directs s k) : Pending ss (n + 1) k :=
  .inl ⟨n, (arms_succ_iff hs).mpr (.inl ⟨rfl, hd⟩)⟩

theorem Pending.of_silent (h : Pending ss n k) (hs : ss[n]? = some s) (hq : Silent s) :
    Pending ss (n + 1) k := by
  rcases h with ⟨j, hj⟩ | ⟨rfl, hn⟩
  · exact .inl ⟨j, (arms_succ_iff hs).mpr (.inr ⟨hj, hq⟩)⟩
  · refine .inr ⟨rfl, fun j m hm => ?_⟩
    rcases (arms_succ_iff hs).mp hm with ⟨-, hd⟩ | ⟨hm, -⟩
    · exact hq.1 m hd
    · exact hn j m hm

theorem pending_of_acts (hs : ss[n]? = some s) (ha : Acts s a) : Pending ss (n + 1) 1 := by
  refine .inr ⟨rfl, fun j m hm => ?_⟩
  rcases (arms_succ_iff hs).mp hm with ⟨-, hd⟩ | ⟨-, hq⟩
  · exact ha.not_directs hd
  · exact hq.2 a ha

/-- The waiting count decides what an action becomes. -/
theorem Pending.entry (h : Pending ss n k) (hs : ss[n]? = some s) (ha : Acts s a) :
    Entry ss n (if 1 < k then Action.repeating k a else a) := by
  refine ⟨s, a, hs, ha, ?_⟩
  split
  · next hk =>
    rcases h with ⟨j, hj⟩ | ⟨rfl, -⟩
    · exact .inl ⟨j, k, hj, hk, rfl⟩
    · omega
  · next hk =>
    refine .inr ⟨?_, rfl⟩
    rintro ⟨j, m, hj, hm⟩
    rcases h with ⟨j', hj'⟩ | ⟨-, hn⟩
    · exact hk ((hj'.unique hj).2 ▸ hm)
    · exact hn j m hj

theorem actsAt_from_succ_iff (hn : ¬ ActsAt ss n) :
    n + 1 ≤ i ∧ ActsAt ss i ↔ n ≤ i ∧ ActsAt ss i := by
  refine and_congr_left fun hi => ⟨fun h => by omega, fun h => ?_⟩
  have hne : n ≠ i := fun he => hn (he ▸ hi)
  omega

theorem not_actsAt (hs : ss[n]? = some s) (hn : ∀ a, ¬ Acts s a) : ¬ ActsAt ss n := by
  rintro ⟨t, a, ht, ha⟩
  obtain rfl : s = t := by simpa [hs] using ht
  exact hn a ha

/-- From any place on, the actions are the entries of the action segments in order. -/
theorem assemble_entries {rest : List (List Char)} {cs : List Clause}
    (hc : List.Forall₂ (fun s c => clause s = .ok c) rest cs) (hr : ss.drop n = rest)
    (hp : Pending ss n k) :
    ∃ places : List Nat, places.Pairwise (· < ·) ∧ (∀ i, i ∈ places ↔ n ≤ i ∧ ActsAt ss i) ∧
      List.Forall₂ (Entry ss) places (assemble k cs) := by
  induction hc generalizing n k with
  | nil =>
    refine ⟨[], .nil, fun i => ?_, .nil⟩
    simp only [List.not_mem_nil, false_iff, not_and]
    rintro hi ⟨s, a, hs, -⟩
    have := List.drop_eq_nil_iff.mp hr
    exact absurd (List.getElem?_eq_some_iff.mp hs).1 (by omega)
  | @cons s c rest cs hc _ ih =>
    have hs : ss[n]? = some s := by rw [← List.head?_drop, hr, List.head?_cons]
    have hr' : ss.drop (n + 1) = rest := by rw [← List.tail_drop, hr, List.tail_cons]
    cases c with
    | directive m =>
      have hd := clause_directive_iff.mp hc
      have hn := not_actsAt hs fun a ha => ha.not_directs hd
      simpa only [assemble, actsAt_from_succ_iff hn] using ih hr' (pending_of_directs hs hd)
    | unknown =>
      have hq := silent_of_unknown hc
      simpa only [assemble, actsAt_from_succ_iff (not_actsAt hs hq.2)] using
        ih hr' (hp.of_silent hs hq)
    | action r a =>
      have ha := clause_action_iff.mp ⟨r, hc⟩
      obtain ⟨places, hlt, hm, he⟩ := ih hr' (pending_of_acts hs ha)
      refine ⟨n :: places, List.pairwise_cons.mpr ⟨fun i hi => ((hm i).mp hi).1, hlt⟩, ?_,
        .cons (hp.entry hs ha) he⟩
      intro i
      rw [List.mem_cons, hm]
      constructor
      · rintro (rfl | ⟨hi, h⟩)
        · exact ⟨Nat.le_refl _, s, a, hs, ha⟩
        · exact ⟨by omega, h⟩
      · rintro ⟨hi, h⟩
        rcases Nat.eq_or_lt_of_le hi with rfl | hlt
        · exact .inl rfl
        · exact .inr ⟨hlt, h⟩

/-- A prompt has one entry for each action segment, in order. It is repeated exactly if the last
segment before it that is not silent is a directive with a count above one. A directive is no
action, and it repeats one action at most. -/
theorem actions_entries {prompt : String} {as : List Action} (h : actions prompt = .ok as) :
    ∃ places : List Nat, places.Pairwise (· < ·) ∧
      (∀ i, i ∈ places ↔ ActsAt (spoken prompt) i) ∧
      List.Forall₂ (Entry (spoken prompt)) places as ∧
      (∀ i s k, (spoken prompt)[i]? = some s → Directs s k → i ∉ places) ∧
      ∀ i ∈ places, ∀ j ∈ places, ∀ m k n,
        Arms (spoken prompt) m i k → Arms (spoken prompt) m j n → i = j := by
  obtain ⟨cs, hc, rfl⟩ := map_eq_ok_iff.mp h
  have hc : List.Forall₂ (fun s c => clause s = .ok c) (spoken prompt) cs := by
    rw [spoken, List.forall₂_map_left_iff]
    exact mapM_eq_ok_iff.mp hc
  obtain ⟨places, hlt, hm, he⟩ := assemble_entries hc List.drop_zero pending_zero
  simp only [Nat.zero_le, true_and] at hm
  refine ⟨places, hlt, hm, he, fun i s k hs hd hi => ?_, fun i hi j hj m k n h h' => ?_⟩
  · exact not_actsAt hs (fun a ha => ha.not_directs hd) ((hm i).mp hi)
  · exact h.reaches_one h' ((hm i).mp hi) ((hm j).mp hj)

/-- The second of two directives reaches an action behind an unknown segment, and no other action. -/
theorem actions_entries_replaced :
    actions "Repeat 2 times, repeat 3 times; hello. Wait 5 ms, wait 1 second" =
        .ok [Action.repeating 3 { kind := .delay, duration := some 5 },
          { kind := .delay, duration := some 1000 }] ∧
      ∃ i j, i < j ∧
        Entry (spoken "Repeat 2 times, repeat 3 times; hello. Wait 5 ms, wait 1 second") i
          (Action.repeating 3 { kind := .delay, duration := some 5 }) ∧
        Entry (spoken "Repeat 2 times, repeat 3 times; hello. Wait 5 ms, wait 1 second") j
          { kind := .delay, duration := some 1000 } := by
  have h : actions "Repeat 2 times, repeat 3 times; hello. Wait 5 ms, wait 1 second" =
      .ok [Action.repeating 3 { kind := .delay, duration := some 5 },
        { kind := .delay, duration := some 1000 }] := rfl
  obtain ⟨places, hlt, -, he, -⟩ := actions_entries h
  obtain ⟨i, rest, hi, hrest, rfl⟩ := List.forall₂_cons_right_iff.mp he
  obtain ⟨j, _, hj, -, rfl⟩ := List.forall₂_cons_right_iff.mp hrest
  exact ⟨h, i, j, (List.pairwise_cons.mp hlt).1 j List.mem_cons_self, hi, hj⟩

end BlockSketch.Prompt
