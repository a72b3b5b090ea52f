import BlockSketch.Proofs.Forest
import Mathlib.Data.List.Chain

/-! # Outlines of steps

The steps of actions are a flat list with levels. Every action begins at the level that it is given,
and only the step of a repetition is followed by a deeper one. So the levels alone tell which steps
are repeated: the longest run of deeper steps after the step of a repetition is its body.
-/

namespace BlockSketch

variable {as : List Action} {a : Action} {l k : Int} {x : Line} {s u : Step} {ss ts : List Step}
  {parts : List (List Step)}

def Program.actionSteps (level : Int) (a : Action) : Except NumeralFault (List Step) :=
  (Program.expand level a).mapM Line.step

/-! ## Levels -/

def Step.Repeats (s : Step) : Prop := s.kind = .control ∧ s.block = some "Repeat"

instance : DecidablePred Step.Repeats := fun _ => inferInstanceAs (Decidable (_ ∧ _))

/-- A step that is deeper than the one before it is so by one level, and the one before it is that of
a repetition. -/
def Step.Follows (s u : Step) : Prop := s.level < u.level → u.level = s.level + 1 ∧ s.Repeats

/-- The steps begin at the level, stay at it or below, and follow one another. -/
structure Nests (l : Int) (ss : List Step) : Prop where
  starts : ∀ s ∈ ss.head?, s.level = l
  within : ∀ s ∈ ss, l ≤ s.level
  chain : ss.IsChain Step.Follows

namespace Nests

theorem nil : Nests l [] where
  starts := nofun
  within := nofun
  chain := .nil

theorem cons (hs : s.level = l) (h : Nests l ss) : Nests l (s :: ss) where
  starts := by
    rintro _ ⟨⟩
    exact hs
  within := List.forall_mem_cons.mpr ⟨Int.le_of_eq hs.symm, h.within⟩
  chain := h.chain.cons fun u hu hl => by
    have hu := h.starts u hu
    omega

theorem append (h : Nests l ss) (h' : Nests l ts) : Nests l (ss ++ ts) where
  starts := by
    intro s hs
    rw [List.head?_append, Option.mem_def, Option.or_eq_some_iff] at hs
    rcases hs with hs | ⟨-, hs⟩
    · exact h.starts s hs
    · exact h'.starts s hs
  within := List.forall_mem_append.mpr ⟨h.within, h'.within⟩
  chain := h.chain.append h'.chain fun s hs u hu hl => by
    have hs := h.within s (List.mem_of_mem_getLast? hs)
    have hu := h'.starts u hu
    omega

/-- The body of a repetition is one level deeper. -/
theorem loop (hs : s.level = l) (hr : s.Repeats) (h : Nests (l + 1) ss) : Nests l (s :: ss) where
  starts := by
    rintro _ ⟨⟩
    exact hs
  within := List.forall_mem_cons.mpr ⟨Int.le_of_eq hs.symm, fun u hu => by
    have hu := h.within u hu
    omega⟩
  chain := h.chain.cons fun u hu _ => ⟨by rw [h.starts u hu, hs], hr⟩

theorem of_level (h : ∀ s ∈ ss, s.level = l) : Nests l ss := by
  induction ss with
  | nil => exact .nil
  | cons s ss ih =>
    obtain ⟨hs, hss⟩ := List.forall_mem_cons.mp h
    exact .cons hs (ih hss)

end Nests

theorem repeats_of_step {n : Option Int} (h : Line.step ⟨l, .repetition n⟩ = .ok s) :
    s.Repeats := by
  obtain ⟨t, -, h⟩ := bind_eq_ok_iff.mp h
  obtain rfl := pure_eq_ok_iff.mp h
  exact ⟨rfl, rfl⟩

theorem not_repeats_of_step (h : x.step = .ok s) (hi : ∀ n, x.instruction ≠ .repetition n) :
    ¬ s.Repeats := by
  rintro ⟨-, hb⟩
  rw [Effect.block_of_step h] at hb
  cases hx : x.instruction with
  | repetition n => exact hi n hx
  | _ => simp [hx, Instruction.block] at hb

/-- Steps of lines at one level are at that level. -/
theorem level_of_mem_steps {is : List Instruction}
    (h : (is.map (⟨l, ·⟩ : Instruction → Line)).mapM Line.step = .ok ss) (hs : s ∈ ss) :
    s.level = l := by
  obtain ⟨x, hx, hxs⟩ := exists_of_mem_mapM h hs
  obtain ⟨i, -, rfl⟩ := List.mem_map.mp hx
  exact Effect.level_of_step hxs

theorem nests_of_steps (h : (Program.expandAll l as).mapM Line.step = .ok ss) : Nests l ss := by
  have forest : Leaves (fun _ => True) as := .of_forall (fun _ => trivial) as
  induction forest generalizing l ss with
  | nil =>
    obtain rfl := pure_eq_ok_iff.mp h
    exact .nil
  | once hk _ _ ih =>
    rw [expandAll_once hk, mapM_append_eq_ok_iff] at h
    obtain ⟨us, vs, hu, hv, rfl⟩ := h
    exact (Nests.of_level fun s => level_of_mem_steps hu).append (ih hv)
  | loop hk _ _ ihi ih =>
    rw [expandAll_loop hk] at h
    simp only [List.mapM_cons, bind_eq_ok_iff, pure_eq_ok_iff, mapM_append_eq_ok_iff] at h
    obtain ⟨s, hs, _, ⟨us, vs, hu, hv, rfl⟩, rfl⟩ := h
    exact (Nests.loop (Effect.level_of_step hs) (repeats_of_step hs) (ihi hu)).append (ih hv)

/-! ## Outlines -/

/-- A step with the outline of its body. -/
inductive Outline where
  | node (step : Step) (body : List Outline)

/-- Gives every repetition the longest run of deeper steps after it as its body. -/
def Outline.ofSteps : List Step → List Outline
  | [] => []
  | s :: ss =>
    if s.Repeats then
      .node s (ofSteps (ss.takeWhile (s.level < ·.level))) ::
        ofSteps (ss.dropWhile (s.level < ·.level))
    else .node s [] :: ofSteps ss
  termination_by ss => ss.length
  decreasing_by
    · exact Nat.lt_succ_of_le (List.takeWhile_prefix _).length_le
    · exact Nat.lt_succ_of_le (List.dropWhile_suffix _).length_le
    · exact Nat.lt_succ_self _

/-- The outline has the actions at the level: the steps of each action without bodies, and of each
repetition its step with the outline of its inner actions, one level deeper. -/
inductive Outlined : Int → List Action → List Outline → Prop where
  | nil {l : Int} : Outlined l [] []
  | once {l : Int} {a : Action} {as : List Action} {ss : List Step} {os : List Outline} :
      a.kind ≠ .repetition → Program.actionSteps l a = .ok ss → Outlined l as os →
      Outlined l (a :: as) (ss.map (.node · []) ++ os)
  | loop {l : Int} {a : Action} {as : List Action} {s : Step} {os ps : List Outline} :
      a.kind = .repetition → Line.step ⟨l, .repetition a.count⟩ = .ok s →
      Outlined (l + 1) a.actions os → Outlined l as ps → Outlined l (a :: as) (.node s os :: ps)

namespace Outline

variable {rest : List Step}

theorem ofSteps_append_of_not_repeats (h : ∀ s ∈ ss, ¬ s.Repeats) :
    ofSteps (ss ++ rest) = ss.map (.node · []) ++ ofSteps rest := by
  induction ss with
  | nil => rfl
  | cons s ss ih =>
    obtain ⟨hs, hss⟩ := List.forall_mem_cons.mp h
    rw [List.cons_append, ofSteps, if_neg hs, ih hss]
    rfl

/-- The body of a repetition ends with its last deeper step. -/
theorem ofSteps_loop (hr : s.Repeats) (hd : ∀ u ∈ ss, s.level < u.level)
    (hb : ∀ u ∈ rest.head?, u.level ≤ s.level) :
    ofSteps (s :: (ss ++ rest)) = .node s (ofSteps ss) :: ofSteps rest := by
  have deeper : ∀ u ∈ ss, decide (s.level < u.level) = true := fun u hu => decide_eq_true (hd u hu)
  have back : ∀ u ∈ rest.head?, decide (s.level < u.level) = false :=
    fun u hu => decide_eq_false (Int.not_lt.mpr (hb u hu))
  obtain ⟨body, after⟩ := run_append deeper back
  rw [ofSteps, if_pos hr, body, after]

end Outline

theorem actionSteps_once (hk : a.kind ≠ .repetition) : Program.actionSteps l a =
    ((Program.instructions a).map (⟨l, ·⟩ : Instruction → Line)).mapM Line.step := by
  rw [Program.actionSteps, ← expandAll_singleton, expandAll_once hk, Program.expandAll,
    List.append_nil]

/-- However the steps go on, if not deeper, the outline of a forest is made of its own steps. -/
theorem outlined_of_steps (h : (Program.expandAll l as).mapM Line.step = .ok ss) :
    ∃ os, Outlined l as os ∧ ∀ rest : List Step, (∀ u ∈ rest.head?, u.level ≤ l) →
      Outline.ofSteps (ss ++ rest) = os ++ Outline.ofSteps rest := by
  have forest : Leaves (fun _ => True) as := .of_forall (fun _ => trivial) as
  induction forest generalizing l ss with
  | nil =>
    obtain rfl := pure_eq_ok_iff.mp h
    exact ⟨[], .nil, fun rest _ => rfl⟩
  | @once a as hk _ _ ih =>
    rw [expandAll_once hk, mapM_append_eq_ok_iff] at h
    obtain ⟨us, vs, hu, hv, rfl⟩ := h
    obtain ⟨os, hos, hrest⟩ := ih hv
    refine ⟨us.map (.node · []) ++ os, .once hk ((actionSteps_once hk).trans hu) hos, ?_⟩
    intro rest hr
    have plain : ∀ s ∈ us, ¬ s.Repeats := by
      intro s hs
      obtain ⟨x, hx, hxs⟩ := exists_of_mem_mapM hu hs
      obtain ⟨i, hi, rfl⟩ := List.mem_map.mp hx
      exact not_repeats_of_step hxs (inLoop_of_mem_instructions hk hi).2
    rw [List.append_assoc, Outline.ofSteps_append_of_not_repeats plain, hrest rest hr,
      List.append_assoc]
  | @loop a as hk _ _ ihi ih =>
    rw [expandAll_loop hk] at h
    simp only [List.mapM_cons, bind_eq_ok_iff, pure_eq_ok_iff, mapM_append_eq_ok_iff] at h
    obtain ⟨s, hs, _, ⟨us, vs, hu, hv, rfl⟩, rfl⟩ := h
    obtain ⟨os, hos, hbody⟩ := ihi hu
    obtain ⟨ps, hps, hrest⟩ := ih hv
    refine ⟨.node s os :: ps, .loop hk hs hos hps, fun rest hr => ?_⟩
    have hl : s.level = l := Effect.level_of_step hs
    have inner : Outline.ofSteps us = os := by
      have alone := hbody [] nofun
      rwa [List.append_nil, Outline.ofSteps, List.append_nil] at alone
    -- What follows the body is the next action or what comes after the forest.
    have back : ∀ u ∈ (vs ++ rest).head?, u.level ≤ s.level := by
      intro u hu
      rw [List.head?_append, Option.mem_def, Option.or_eq_some_iff] at hu
      rcases hu with hu | ⟨-, hu⟩
      · exact Int.le_of_eq (((nests_of_steps hv).starts u hu).trans hl.symm)
      · exact hl ▸ hr u hu
    have deeper : ∀ u ∈ us, s.level < u.level := by
      intro u hm
      have hm := (nests_of_steps hu).within u hm
      omega
    rw [List.cons_append, List.append_assoc,
      Outline.ofSteps_loop (repeats_of_step hs) deeper back, inner, hrest rest hr]
    rfl

/-! ## Deeper levels -/

def Step.deepened (k : Int) (s : Step) : Step := { s with level := s.level + k }

def Line.deepened (k : Int) (x : Line) : Line := { x with level := x.level + k }

theorem expandAll_add : Program.expandAll (l + k) as =
    (Program.expandAll l as).map (Line.deepened k) := by
  have forest : Leaves (fun _ => True) as := .of_forall (fun _ => trivial) as
  induction forest generalizing l with
  | nil => rfl
  | once hk _ _ ih =>
    rw [expandAll_once hk, expandAll_once hk, List.map_append, List.map_map, ih]
    rfl
  | loop hk _ _ ihi ih =>
    rw [expandAll_loop hk, expandAll_loop hk, List.map_cons, List.map_append, ih,
      Int.add_right_comm, ihi]
    rfl

theorem step_deepened : (x.deepened k).step = x.step.map (Step.deepened k) := by
  unfold Line.step Line.deepened
  cases x.instruction.text <;> rfl

theorem mapM_step_deepened {xs : List Line} :
    (xs.map (Line.deepened k)).mapM Line.step =
      (xs.mapM Line.step).map (List.map (Step.deepened k)) := by
  induction xs with
  | nil => rfl
  | cons x xs ih =>
    rw [List.map_cons, List.mapM_cons, List.mapM_cons, ih, step_deepened]
    cases x.step with
    | error e => rfl
    | ok s => cases xs.mapM Line.step <;> rfl

theorem actionSteps_add (a : Action) (k : Int) : Program.actionSteps (l + k) a =
    (Program.actionSteps l a).map (List.map (Step.deepened k)) := by
  rw [Program.actionSteps, ← expandAll_singleton, expandAll_add, mapM_step_deepened,
    expandAll_singleton, Program.actionSteps]

/-! ## Whole forests -/

theorem instructions_ne_nil (a : Action) : Program.instructions a ≠ [] := by
  unfold Program.instructions Program.setting
  repeat' split
  all_goals exact List.cons_ne_nil _ _

theorem head?_of_actionSteps (h : Program.actionSteps l a = .ok ss) :
    ∃ s ∈ ss.head?, s.level = l := by
  obtain ⟨i, is, hi⟩ := List.exists_cons_of_ne_nil (instructions_ne_nil a)
  have first : ∃ xs, Program.expand l a = ⟨l, i⟩ :: xs := by
    cases a
    rw [Program.expand]
    exact ⟨_, congrArg (· ++ _) (congrArg (List.map _) hi)⟩
  obtain ⟨xs, hx⟩ := first
  rw [Program.actionSteps, hx] at h
  simp only [List.mapM_cons, bind_eq_ok_iff, pure_eq_ok_iff] at h
  obtain ⟨s, hs, ss, -, rfl⟩ := h
  exact ⟨s, rfl, Effect.level_of_step hs⟩

theorem mapM_flatten_of_actionSteps (h : as.mapM (Program.actionSteps l) = .ok parts) :
    (Program.expandAll l as).mapM Line.step = .ok parts.flatten := by
  rw [expandAll_eq_flatMap]
  exact mapM_flatMap_eq_ok h

/-- The steps of each action of a forest begin at the level of the forest, only the step of a
repetition is followed by a deeper one, by one level, and the levels alone give the forest back.
Actions at a deeper level have the same steps, deeper by as much. -/
theorem outlined_of_actionSteps (h : as.mapM (Program.actionSteps l) = .ok parts) :
    (∀ ss ∈ parts, ∃ s ∈ ss.head?, s.level = l) ∧ parts.flatten.IsChain Step.Follows ∧
      Outlined l as (Outline.ofSteps parts.flatten) ∧
      ∀ a k, Program.actionSteps (l + k) a =
        (Program.actionSteps l a).map (List.map (Step.deepened k)) := by
  have lines := mapM_flatten_of_actionSteps h
  refine ⟨fun ss hs => ?_, (nests_of_steps lines).chain, ?_, actionSteps_add⟩
  · obtain ⟨a, -, ha⟩ := exists_of_mem_mapM h hs
    exact head?_of_actionSteps ha
  · obtain ⟨os, hos, hrest⟩ := outlined_of_steps lines
    have whole := hrest [] nofun
    rw [List.append_nil, Outline.ofSteps, List.append_nil] at whole
    rwa [whole]

/-- A repetition with a light that blinks, a repetition of nothing and another one, before a print. -/
def nestedActions : List Action := [
  { kind := .repetition, count := some 3, actions := [
    { kind := .set, component := some "led", value := some (.text "blink"), duration := some 5 },
    { kind := .repetition, count := some 2 },
    { kind := .repetition, count := some 4, actions := [{ kind := .delay, duration := some 7 }] }] },
  { kind := .print, component := some "lcd", value := some (.text "done") }]

theorem outlined_of_actionSteps_nested : ∃ parts,
    nestedActions.mapM (Program.actionSteps (-1)) = .ok parts ∧
      parts.flatten.map Step.level = [-1, 0, 0, 0, 0, 0, 0, 1, -1] ∧
      (∀ ss ∈ parts, ∃ s ∈ ss.head?, s.level = -1) ∧ parts.flatten.IsChain Step.Follows ∧
      Outlined (-1) nestedActions (Outline.ofSteps parts.flatten) := by
  obtain ⟨parts, h⟩ :=
    exists_ok_of_isOk (x := nestedActions.mapM (Program.actionSteps (-1))) (by decide +kernel)
  have levels : (nestedActions.mapM (Program.actionSteps (-1))).map
      (fun parts => parts.flatten.map Step.level) = .ok [-1, 0, 0, 0, 0, 0, 0, 1, -1] := by
    decide +kernel
  rw [h] at levels
  obtain ⟨starts, chain, outlined, -⟩ := outlined_of_actionSteps h
  exact ⟨parts, h, Except.ok.inj levels, starts, chain, outlined⟩

end BlockSketch
