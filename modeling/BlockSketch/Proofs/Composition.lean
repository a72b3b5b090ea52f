import BlockSketch.Proofs.Repeats
import BlockSketch.Proofs.Written

/-! # Prompts put together

The segments of two prompts with a separator between them are those of the one and then those of the
other, so its actions are too. Only a count that still waits at the end of the first prompt reaches the
first action of the second, unless a directive comes before that.
-/

namespace BlockSketch.Prompt

open Text

variable {p q r t : String} {c d : Char} {s u : List Char} {ss : List (List Char)}
  {cs ds : List Clause} {as bs : List Action} {a : Action} {k n : Nat}

/-! ## Segments -/

/-- Two prompts with a separator between them. -/
def together (p : String) (c : Char) (q : String) : String := p ++ String.singleton c ++ q

theorem spoken_together (hc : isSeparator c = true) :
    spoken (together p c q) = spoken p ++ spoken q := by
  have chars : (together p c q).toList = p.toList ++ c :: q.toList := by simp [together]
  rw [spoken, chars, segments_append hc, List.map_append]
  rfl

/-- The texts differ at most in which separators they have. -/
def Repunctuated (p q : String) : Prop :=
  List.Forall₂ (fun c d => c = d ∨ isSeparator c = true ∧ isSeparator d = true) p.toList q.toList

theorem pieces_repunctuated
    (h : List.Forall₂ (fun c d => c = d ∨ isSeparator c = true ∧ isSeparator d = true) s u) :
    Pin.pieces isSeparator s = Pin.pieces isSeparator u := by
  induction h with
  | nil => rfl
  | cons hcd _ ih =>
    rcases hcd with rfl | ⟨hc, hd⟩
    · rw [Pin.pieces, Pin.pieces, ih]
    · rw [Pin.pieces, Pin.pieces, ih, if_pos hc, if_pos hd]

theorem Repunctuated.spoken_eq (h : Repunctuated p q) : spoken p = spoken q := by
  simp only [spoken, segments, pieces_repunctuated h]

/-! ## Clauses -/

/-- The clauses of segments in order. -/
def Says (ss : List (List Char)) (cs : List Clause) : Prop :=
  List.Forall₂ (fun s c => clause s = .ok c) ss cs

theorem clauses_eq_mapM (p : String) : clauses p.toList = (spoken p).mapM clause := by
  rw [clauses, spoken, List.mapM_map]
  rfl

theorem actions_congr (h : spoken p = spoken q) : actions p = actions q := by
  rw [actions, actions, clauses_eq_mapM, clauses_eq_mapM, h]

theorem actions_eq_ok_iff : actions p = .ok as ↔ ∃ cs, Says (spoken p) cs ∧ assemble 1 cs = as := by
  rw [actions, map_eq_ok_iff, clauses_eq_mapM]
  simp only [mapM_eq_ok_iff, Says]

/-- Nothing is made of the segment: it is no directive, and no rule applies. -/
def Ignored (s : List Char) : Prop :=
  search repeatAt? s = none ∧ ∀ r : Rule, r.apply s = .ok none

theorem firstOf_of_ignored {rs : List Rule} (h : ∀ r ∈ rs, r.apply s = .ok none) :
    firstOf s rs = .ok none := by
  induction rs with
  | nil => rfl
  | cons r rs ih =>
    obtain ⟨hr, hrs⟩ := List.forall_mem_cons.mp h
    exact bind_eq_ok_iff.mpr ⟨none, hr, ih hrs⟩

theorem Ignored.clause_eq (h : Ignored s) : clause s = .ok .unknown := by
  have hs : sentence s = .ok none := firstOf_of_ignored fun r _ => h.2 r
  rw [clause, h.1]
  exact bind_eq_ok_iff.mpr ⟨none, hs, rfl⟩

/-- Nothing is made of any segment of the text; it may be blank. -/
def Mute (t : String) : Prop := ∀ s ∈ spoken t, Ignored s

/-! ## The waiting count -/

/-- The count that waits after a clause. -/
def waiting (count : Nat) : Clause → Nat
  | .directive n => n
  | .action _ _ => 1
  | .unknown => count

theorem assemble_append :
    assemble k (cs ++ ds) = assemble k cs ++ assemble (cs.foldl waiting k) ds := by
  induction cs generalizing k with
  | nil => rfl
  | cons c cs ih => cases c <;> simp [assemble, waiting, ih]

theorem Pending.unique (h : Pending ss n k) {m : Nat} (h' : Pending ss n m) : k = m := by
  rcases h with ⟨j, hj⟩ | ⟨rfl, hn⟩
  · rcases h' with ⟨i, hi⟩ | ⟨-, hn⟩
    · exact (hj.unique hi).2
    · exact absurd hj (hn j k)
  · rcases h' with ⟨i, hi⟩ | ⟨rfl, -⟩
    · exact absurd hi (hn i m)
    · rfl

theorem Pending.step {x : Clause} (h : Pending ss n k) (hs : ss[n]? = some s)
    (hc : clause s = .ok x) : Pending ss (n + 1) (waiting k x) := by
  cases x with
  | directive m => exact pending_of_directs hs (clause_directive_iff.mp hc)
  | action r a => exact pending_of_acts hs (clause_action_iff.mp ⟨r, hc⟩)
  | unknown => exact h.of_silent hs (silent_of_unknown hc)

/-- What waits at the end of segments is what the run over their clauses leaves. -/
theorem Pending.run (before : List (List Char)) (hc : Says ss cs)
    (h : Pending (before ++ ss) before.length k) :
    Pending (before ++ ss) (before ++ ss).length (cs.foldl waiting k) := by
  induction hc generalizing before k with
  | nil => simpa using h
  | @cons s x ss cs hx _ ih =>
    have hs : (before ++ s :: ss)[before.length]? = some s := by simp
    have later : before ++ s :: ss = (before ++ [s]) ++ ss := by simp
    have next := h.step hs hx
    rw [later] at next ⊢
    exact ih _ (by simpa using next)

theorem pending_length (hc : Says ss cs) : Pending ss ss.length (cs.foldl waiting 1) :=
  Pending.run [] hc pending_zero

/-! ## The first action -/

/-- Some segment is an action, and no directive comes before it. -/
def Receptive (ss : List (List Char)) : Prop :=
  ∃ i, ActsAt ss i ∧ ∀ j s k, j < i → ss[j]? = some s → ¬ Directs s k

theorem not_receptive_nil : ¬ Receptive [] := by
  rintro ⟨i, ⟨s, a, hs, -⟩, -⟩
  cases hs

theorem not_receptive_of_directs (hd : Directs s k) : ¬ Receptive (s :: ss) := by
  rintro ⟨_ | i, ⟨t, a, ht, ha⟩, hn⟩
  · obtain rfl := Option.some.inj ht
    exact ha.not_directs hd
  · exact hn 0 s k (Nat.succ_pos i) rfl hd

theorem receptive_of_acts (ha : Acts s a) : Receptive (s :: ss) :=
  ⟨0, ⟨s, a, rfl, ha⟩, fun _ _ _ hj => absurd hj (Nat.not_lt_zero _)⟩

theorem receptive_cons_iff (hs : Silent s) : Receptive (s :: ss) ↔ Receptive ss := by
  constructor
  · rintro ⟨_ | i, ⟨t, a, ht, ha⟩, hn⟩
    · obtain rfl := Option.some.inj ht
      exact absurd ha (hs.2 a)
    · exact ⟨i, ⟨t, a, ht, ha⟩, fun j t k hj ht => hn (j + 1) t k (Nat.succ_lt_succ hj) ht⟩
  · rintro ⟨i, ⟨t, a, ht, ha⟩, hn⟩
    refine ⟨i + 1, ⟨t, a, ht, ha⟩, ?_⟩
    rintro (_ | j) u k hj hu
    · obtain rfl := Option.some.inj hu
      exact hs.1 k
    · exact hn j u k (Nat.lt_of_succ_lt_succ hj) hu

/-- A waiting count changes the first action alone, and that only if no directive comes first. -/
theorem assemble_of_receptive (hc : Says ss cs) (hr : Receptive ss) (hk : 1 < k) :
    ∃ a rest, assemble 1 cs = a :: rest ∧ assemble k cs = Action.repeating k a :: rest := by
  induction hc with
  | nil => exact absurd hr not_receptive_nil
  | @cons s x ss cs hx _ ih =>
    cases x with
    | directive n => exact absurd hr (not_receptive_of_directs (clause_directive_iff.mp hx))
    | action r a => exact ⟨a, assemble 1 cs, by simp [assemble], by simp [assemble, hk]⟩
    | unknown => exact ih ((receptive_cons_iff (silent_of_unknown hx)).mp hr)

theorem assemble_of_not_receptive (hc : Says ss cs) (hr : ¬ (1 < k ∧ Receptive ss)) :
    assemble k cs = assemble 1 cs := by
  induction hc with
  | nil => rfl
  | @cons s x ss cs hx _ ih =>
    cases x with
    | directive n => rfl
    | action r a =>
      have hk : ¬ 1 < k := fun hk =>
        hr ⟨hk, receptive_of_acts (clause_action_iff.mp ⟨r, hx⟩)⟩
      simp [assemble, hk]
    | unknown =>
      rw [receptive_cons_iff (silent_of_unknown hx)] at hr
      exact ih hr

/-! ## Two prompts -/

theorem mapM_clause_of_ignored (h : ∀ s ∈ ss, Ignored s) :
    ss.mapM clause = .ok (List.replicate ss.length .unknown) := by
  induction ss with
  | nil => rfl
  | cons s ss ih =>
    obtain ⟨hs, hss⟩ := List.forall_mem_cons.mp h
    rw [List.mapM_cons, hs.clause_eq, ih hss]
    rfl

theorem assemble_unknowns (n : Nat) : assemble k (List.replicate n .unknown ++ cs) = assemble k cs := by
  induction n with
  | zero => rfl
  | succ n ih => exact ih

/-- Segments of which nothing is made can stand anywhere, also before one that cannot be read. -/
theorem actions_of_ignored {u v w : List (List Char)} (hp : spoken p = u ++ (v ++ w))
    (hq : spoken q = u ++ w) (h : ∀ s ∈ v, Ignored s) : actions p = actions q := by
  rw [actions, actions, clauses_eq_mapM, clauses_eq_mapM, hp, hq]
  simp only [List.mapM_append, mapM_clause_of_ignored h]
  cases u.mapM clause with
  | error e => rfl
  | ok cs =>
    cases w.mapM clause with
    | error e => rfl
    | ok ds =>
      have rest : assemble 1 (cs ++ (List.replicate v.length .unknown ++ ds)) =
          assemble 1 (cs ++ ds) := by
        rw [assemble_append, assemble_unknowns, ← assemble_append]
      exact congrArg Except.ok rest

/-- The actions of two prompts that are put together are those of the one and then those of the other.
The exception is a count above one that waits at the end of the first prompt: it repeats the first
action of the second, if no directive comes before that. Which separators are used makes no difference,
and neither do texts, in any place, of which nothing is made. -/
theorem actions_together (hc : isSeparator c = true) (hp : actions p = .ok as)
    (hq : actions q = .ok bs) :
    ∃ k, (∀ n, Pending (spoken p) (spoken p).length n ↔ n = k) ∧
      (1 < k ∧ Receptive (spoken q) → ∃ b rest, bs = b :: rest ∧
        actions (together p c q) = .ok (as ++ Action.repeating k b :: rest)) ∧
      (¬ (1 < k ∧ Receptive (spoken q)) → actions (together p c q) = .ok (as ++ bs)) ∧
      (∀ r, Repunctuated (together p c q) r → actions r = actions (together p c q)) ∧
      ∀ t, Mute t → ∀ d, isSeparator d = true →
        actions (together p c (together t d q)) = actions (together p c q) ∧
        actions (together t d p) = actions p ∧ actions (together p d t) = actions p := by
  obtain ⟨cs, hcs, rfl⟩ := actions_eq_ok_iff.mp hp
  obtain ⟨ds, hds, rfl⟩ := actions_eq_ok_iff.mp hq
  have whole : actions (together p c q) =
      .ok (assemble 1 cs ++ assemble (cs.foldl waiting 1) ds) := by
    refine actions_eq_ok_iff.mpr ⟨cs ++ ds, ?_, assemble_append⟩
    rw [spoken_together hc]
    exact List.rel_append hcs hds
  refine ⟨cs.foldl waiting 1, fun n => ?_, ?_, ?_, ?_, ?_⟩
  · exact ⟨fun h => h.unique (pending_length hcs), fun h => h ▸ pending_length hcs⟩
  · rintro ⟨hk, hr⟩
    obtain ⟨b, rest, hb, hkb⟩ := assemble_of_receptive hds hr hk
    exact ⟨b, rest, hb, by rw [whole, hkb]⟩
  · intro hn
    rw [whole, assemble_of_not_receptive hds hn]
  · exact fun r hr => (actions_congr hr.spoken_eq).symm
  · intro t ht d hd
    refine ⟨actions_of_ignored (v := spoken t) ?_ (spoken_together hc) ht,
      actions_of_ignored (u := []) (spoken_together hd) rfl ht,
      actions_of_ignored (w := []) ?_ (List.append_nil _).symm ht⟩
    · rw [spoken_together hc, spoken_together hd]
    · rw [spoken_together hd, List.append_nil]

/-- A directive at the end of one prompt reaches the first action of the next, past a greeting. -/
theorem actions_together_greeting :
    actions "Wait 5 ms; repeat 3 times" = .ok [{ kind := .delay, duration := some 5 }] ∧
      actions "Read light sensor" = .ok [{ kind := .read, component := some "light" }] ∧
      actions (together "Wait 5 ms; repeat 3 times" ',' (together "hello" '.' "Read light sensor")) =
        .ok [{ kind := .delay, duration := some 5 },
          Action.repeating 3 { kind := .read, component := some "light" }] := by
  have hp : actions "Wait 5 ms; repeat 3 times" = .ok [{ kind := .delay, duration := some 5 }] := rfl
  have hq : actions "Read light sensor" = .ok [{ kind := .read, component := some "light" }] := rfl
  obtain ⟨k, hk, repeated, -, -, inserted⟩ := actions_together (c := ',') rfl hp hq
  have pending : Pending (spoken "Wait 5 ms; repeat 3 times") 2 3 :=
    .inl ⟨1, by omega, ⟨"repeat 3 times".toList, rfl, ['3'], rfl, rfl⟩, fun m s h h' => by omega⟩
  obtain rfl := (hk 3).mp pending
  have acts : Acts "read light sensor".toList { kind := .read, component := some "light" } :=
    ⟨rfl, .sensor, rfl⟩
  obtain ⟨b, rest, hb, joined⟩ := repeated ⟨by omega, receptive_of_acts acts⟩
  obtain ⟨rfl, rfl⟩ := List.cons.inj hb
  have mute : Mute "hello" := by
    intro s hs
    obtain rfl : s = "hello".toList := List.mem_singleton.mp hs
    exact ⟨rfl, fun r => by cases r <;> rfl⟩
  exact ⟨hp, hq, (inserted "hello" mute '.' rfl).1.trans joined⟩

end BlockSketch.Prompt
