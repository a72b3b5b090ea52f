import BlockSketch.Proofs.Readback

/-! # Forests of actions

Repetitions make a forest of the actions, whose leaves are the other actions. The steps of a forest
are read back by their levels and the statements by their braces, and both give the effects of the
leaves inside the same repetitions.
-/

namespace BlockSketch

variable {as : List Action} {a : Action} {l : Int} {i : Instruction} {P : Action → Prop}

/-- Every action of the forest that is no repetition satisfies the predicate. -/
inductive Leaves (P : Action → Prop) : List Action → Prop where
  | nil : Leaves P []
  | once {a : Action} {as : List Action} : a.kind ≠ .repetition → P a → Leaves P as →
      Leaves P (a :: as)
  | loop {a : Action} {as : List Action} : a.kind = .repetition → Leaves P a.actions →
      Leaves P as → Leaves P (a :: as)

theorem Leaves.imp {Q : Action → Prop} (h : Leaves P as) (hi : ∀ a, P a → Q a) : Leaves Q as := by
  induction h with
  | nil => exact .nil
  | once hk ha _ ih => exact .once hk (hi _ ha) ih
  | loop hk _ _ ihi ih => exact .loop hk ihi ih

mutual

theorem Leaves.of_forall_inner (h : ∀ a, P a) : ∀ a : Action, Leaves P a.actions
  | ⟨_, _, _, _, _, _, _, actions⟩ => Leaves.of_forall h actions

theorem Leaves.of_forall (h : ∀ a, P a) : ∀ as : List Action, Leaves P as
  | [] => .nil
  | a :: as =>
    if hk : a.kind = .repetition then .loop hk (of_forall_inner h a) (of_forall h as)
    else .once hk (h a) (of_forall h as)

end

/-! ## One action -/

theorem expandAll_eq_flatMap : Program.expandAll l as = as.flatMap (Program.expand l) := by
  induction as with
  | nil => rfl
  | cons a as ih => rw [Program.expandAll, ih, List.flatMap_cons]

theorem placeAll_eq_flatMap : Sketch.placeAll l as = as.flatMap (Sketch.place l) := by
  induction as with
  | nil => rfl
  | cons a as ih => rw [Sketch.placeAll, ih, List.flatMap_cons]

theorem expandAll_singleton : Program.expandAll l [a] = Program.expand l a := by
  rw [expandAll_eq_flatMap, List.flatMap_singleton]

theorem placeAll_singleton : Sketch.placeAll l [a] = Sketch.place l a := by
  rw [placeAll_eq_flatMap, List.flatMap_singleton]

theorem expandAll_once (h : a.kind ≠ .repetition) : Program.expandAll l (a :: as) =
    (Program.instructions a).map (⟨l, ·⟩) ++ Program.expandAll l as := by
  cases a
  simp only [Program.expandAll, Program.expand, if_neg h, List.append_nil]
  rfl

theorem expandAll_loop (h : a.kind = .repetition) : Program.expandAll l (a :: as) =
    ⟨l, .repetition a.count⟩ ::
      (Program.expandAll (l + 1) a.actions ++ Program.expandAll l as) := by
  cases a
  obtain rfl := h
  simp [Program.expandAll, Program.expand, Program.instructions]

theorem placeAll_once (h : a.kind ≠ .repetition) : Sketch.placeAll l (a :: as) =
    (Sketch.statements a).map (⟨l, ·⟩) ++ Sketch.placeAll l as := by
  cases a
  simp only [Sketch.placeAll, Sketch.place, if_neg h, List.append_nil]
  rfl

theorem placeAll_loop (h : a.kind = .repetition) : Sketch.placeAll l (a :: as) =
    ⟨l, .openLoop a.count⟩ :: (Sketch.placeAll (l + 1) a.actions ++
      ⟨l, .closeLoop⟩ :: Sketch.placeAll l as) := by
  cases a
  obtain rfl := h
  simp [Sketch.placeAll, Sketch.place, Sketch.statements]

theorem inLoop_of_mem_setting (hi : i ∈ Program.setting a) :
    Effect.inLoop i = true ∧ ∀ n, i ≠ .repetition n := by
  unfold Program.setting at hi
  split at hi
  · simp only [List.mem_cons, List.not_mem_nil, or_false] at hi
    rcases hi with rfl | rfl | rfl | rfl <;> simp [Effect.inLoop]
  · split at hi
    · obtain rfl := List.mem_singleton.mp hi
      simp [Effect.inLoop]
    · split at hi
      · split at hi
        · simp only [List.mem_cons, List.not_mem_nil, or_false] at hi
          rcases hi with rfl | rfl | rfl <;> simp [Effect.inLoop]
        · obtain rfl := List.mem_singleton.mp hi
          simp [Effect.inLoop]
      · obtain rfl := List.mem_singleton.mp hi
        simp [Effect.inLoop]

theorem inLoop_of_mem_instructions (h : a.kind ≠ .repetition) (hi : i ∈ Program.instructions a) :
    Effect.inLoop i = true ∧ ∀ n, i ≠ .repetition n := by
  unfold Program.instructions at hi
  split at hi
  · exact inLoop_of_mem_setting hi
  · obtain rfl := List.mem_singleton.mp hi
    simp [Effect.inLoop]
  · split at hi <;> obtain rfl := List.mem_singleton.mp hi <;> simp [Effect.inLoop]
  · obtain rfl := List.mem_singleton.mp hi
    simp [Effect.inLoop]
  · obtain rfl := List.mem_singleton.mp hi
    simp [Effect.inLoop]
  · contradiction

namespace Effect

variable {f : Action → Action} {e : Effect} {es : List Effect} {is : List Instruction}
  {ss : List Step} {xs rest : List (Int × Effect)}

/-- The effects of a forest whose leaves are first changed by `f`. -/
inductive Performs (f : Action → Action) : List Action → List Effect → Prop where
  | nil : Performs f [] []
  | once {a : Action} {as : List Action} {es fs : List Effect} : a.kind ≠ .repetition →
      List.Forall₂ Shows (Program.instructions (f a)) es → Performs f as fs →
      Performs f (a :: as) (es ++ fs)
  | loop {a : Action} {as : List Action} {n : String} {es fs : List Effect} :
      a.kind = .repetition → numberText a.count = .ok n → Performs f a.actions es →
      Performs f as fs → Performs f (a :: as) (repetition n es :: fs)

/-! ## Levels -/

/-- The step has the level and shows the effect. -/
def ReadsAs (s : Step) (x : Int × Effect) : Prop := ofStep? s = some x.2 ∧ s.level = x.1

/-- The effect is no repetition. -/
def IsOnce (e : Effect) : Prop := ∀ n es, e ≠ repetition n es

theorem Shows.isOnce (h : Shows i e) (hi : ∀ n, i ≠ .repetition n) : IsOnce e := by
  cases h with
  | repetition _ => exact absurd rfl (hi _)
  | _ => exact fun n es => nofun

theorem isOnce_of_shows (h : List.Forall₂ Shows is es) (hi : ∀ i ∈ is, ∀ n, i ≠ .repetition n) :
    ∀ e ∈ es, IsOnce e := by
  induction h with
  | nil => simp
  | cons he _ ih =>
    obtain ⟨hi, his⟩ := List.forall_mem_cons.mp hi
    exact List.forall_mem_cons.mpr ⟨he.isOnce hi, ih his⟩

theorem nest_cons_of_isOnce (h : IsOnce e) : nest ((l, e) :: xs) = (l, e) :: nest xs := by
  cases e with
  | repetition n es => exact absurd rfl (h n es)
  | _ => rfl

theorem nest_append_of_isOnce (h : ∀ e ∈ es, IsOnce e) :
    nest (es.map (l, ·) ++ rest) = es.map (l, ·) ++ nest rest := by
  induction es with
  | nil => rfl
  | cons e es ih =>
    obtain ⟨he, hes⟩ := List.forall_mem_cons.mp h
    rw [List.map_cons, List.cons_append, nest_cons_of_isOnce he, ih hes, List.cons_append]

/-- The list goes on with nothing deeper than the level. -/
def Returns (l : Int) (xs : List (Int × Effect)) : Prop := ∀ x ∈ (nest xs).head?, x.1 ≤ l

theorem Returns.mono {k : Int} (h : Returns l xs) (hl : l ≤ k) : Returns k xs :=
  fun x hx => Int.le_trans (h x hx) hl

theorem Returns.append (h : Returns l rest)
    (hx : nest (xs ++ rest) = es.map (l, ·) ++ nest rest) : Returns l (xs ++ rest) := by
  intro x hm
  rw [hx] at hm
  cases es with
  | nil => exact h x hm
  | cons e es =>
    obtain rfl := Option.mem_some_iff.mp hm
    exact Int.le_refl l

/-- A repetition takes exactly its own body, however the list goes on at its level. -/
theorem nest_loop {n : String} {fs : List Effect} (h : Returns l rest)
    (hx : nest (xs ++ rest) = es.map (l + 1, ·) ++ nest rest) :
    nest ((l, repetition n fs) :: (xs ++ rest)) = (l, repetition n es) :: nest rest := by
  have hd : ∀ x ∈ es.map (l + 1, ·), (decide (l < x.1)) = true := by
    intro x hx
    obtain ⟨e, -, rfl⟩ := List.mem_map.mp hx
    exact decide_eq_true (Int.lt_succ l)
  have hb : ∀ x ∈ (nest rest).head?, decide (l < x.1) = false :=
    fun x hx => decide_eq_false (Int.not_lt.mpr (h x hx))
  obtain ⟨ht, hr⟩ := run_append hd hb
  have hm : (es.map fun e => (l + 1, e)).map Prod.snd = es := by
    simp [List.map_map, Function.comp_def]
  rw [nest, hx, ht, hr, hm]

theorem shows_of_steps (hi : ∀ i ∈ is, inLoop i = true)
    (h : (is.map (⟨l, ·⟩ : Instruction → Line)).mapM Line.step = .ok ss) :
    ∃ es, List.Forall₂ Shows is es ∧ List.Forall₂ ReadsAs ss (es.map (l, ·)) := by
  induction is generalizing ss with
  | nil =>
    obtain rfl := pure_eq_ok_iff.mp h
    exact ⟨[], .nil, .nil⟩
  | cons i is ih =>
    obtain ⟨hi, his⟩ := List.forall_mem_cons.mp hi
    simp only [List.map_cons, List.mapM_cons, bind_eq_ok_iff, pure_eq_ok_iff] at h
    obtain ⟨s, hs, ss, hss, rfl⟩ := h
    obtain ⟨e, he, hr, hl⟩ := shows_of_step hi hs
    obtain ⟨es, hes, hrs⟩ := ih his hss
    exact ⟨e :: es, .cons he hes, .cons ⟨hr, hl⟩ hrs⟩

/-- The steps of a forest are read back by their levels. -/
theorem performs_of_steps (h : (Program.expandAll l as).mapM Line.step = .ok ss) :
    ∃ es xs, Performs id as es ∧ List.Forall₂ ReadsAs ss xs ∧
      ∀ rest, Returns l rest → nest (xs ++ rest) = es.map (l, ·) ++ nest rest := by
  have hl : Leaves (fun _ => True) as := .of_forall (fun _ => trivial) as
  induction hl generalizing l ss with
  | nil =>
    obtain rfl := pure_eq_ok_iff.mp h
    exact ⟨[], [], .nil, .nil, fun rest _ => rfl⟩
  | @once a as hk _ _ ih =>
    rw [expandAll_once hk, mapM_append_eq_ok_iff] at h
    obtain ⟨us, vs, hu, hv, rfl⟩ := h
    obtain ⟨es, hes, hus⟩ := shows_of_steps (fun i hi => (inLoop_of_mem_instructions hk hi).1) hu
    obtain ⟨fs, ys, hfs, hvs, hn⟩ := ih hv
    refine ⟨es ++ fs, es.map (l, ·) ++ ys, .once hk hes hfs, List.rel_append hus hvs, ?_⟩
    intro rest hr
    have ho : ∀ e ∈ es, IsOnce e := isOnce_of_shows hes fun i hi =>
      (inLoop_of_mem_instructions hk hi).2
    rw [List.append_assoc, nest_append_of_isOnce ho, hn rest hr, List.map_append, List.append_assoc]
  | @loop a as hk _ _ ihi ih =>
    rw [expandAll_loop hk] at h
    simp only [List.mapM_cons, bind_eq_ok_iff, pure_eq_ok_iff, mapM_append_eq_ok_iff] at h
    obtain ⟨s, hs, _, ⟨us, vs, hu, hv, rfl⟩, rfl⟩ := h
    obtain ⟨es, xs, hes, hus, hx⟩ := ihi hu
    obtain ⟨fs, ys, hfs, hvs, hy⟩ := ih hv
    obtain ⟨e, he, hre, hle⟩ := shows_of_step rfl hs
    cases he with | repetition hc => ?_
    refine ⟨.repetition _ es :: fs, (l, .repetition _ []) :: (xs ++ ys), .loop hk hc hes hfs,
      .cons ⟨hre, hle⟩ (List.rel_append hus hvs), ?_⟩
    intro rest hr
    have hr' : Returns l (ys ++ rest) := hr.append (hy rest hr)
    have hb := hx (ys ++ rest) (hr'.mono (Int.le_add_one (Int.le_refl l)))
    rw [List.cons_append, List.append_assoc, nest_loop hr' hb, hy rest hr]
    rfl

/-! ## Whole programs -/

theorem block_of_step {x : Line} {s : Step} (h : x.step = .ok s) :
    s.block = some x.instruction.block := by
  obtain ⟨t, -, h⟩ := bind_eq_ok_iff.mp h
  obtain rfl := pure_eq_ok_iff.mp h
  rfl

theorem level_of_step {x : Line} {s : Step} (h : x.step = .ok s) : s.level = x.level := by
  obtain ⟨t, -, h⟩ := bind_eq_ok_iff.mp h
  obtain rfl := pure_eq_ok_iff.mp h
  rfl

/-- The line sets the mode of a pin of one of the components. -/
def SetsPin (cs : List Component) (x : Line) : Prop :=
  ∃ c ∈ cs, ∃ spec ps p, c.spec? = some spec ∧ Pin.readAll c.pins = .ok ps ∧ p ∈ ps ∧
    x = ⟨1, .pinMode spec.name p c.pinMode⟩

theorem mem_setup {cs : List Component} {ls : List Line} {x : Line} (h : Program.setup cs = .ok ls)
    (hx : x ∈ ls) : x = ⟨0, .program⟩ ∨ x = ⟨0, .setup⟩ ∨ SetsPin cs x := by
  obtain ⟨modes, hm, hl⟩ := bind_eq_ok_iff.mp h
  obtain rfl := pure_eq_ok_iff.mp hl
  rcases List.mem_append.mp hx with hx | hx
  · rcases List.mem_pair.mp hx with rfl | rfl
    · exact .inl rfl
    · exact .inr (.inl rfl)
  · obtain ⟨ms, hms, hx⟩ := List.mem_flatten.mp hx
    obtain ⟨c, hmem, hc⟩ := exists_of_mem_mapM hm hms
    unfold Program.pinModes at hc
    split at hc
    · obtain rfl := Except.ok.inj hc
      cases hx
    · next spec hs =>
      obtain ⟨ps, hp, rfl⟩ := map_eq_ok_iff.mp hc
      obtain ⟨p, hm, rfl⟩ := List.mem_map.mp hx
      exact .inr (.inr ⟨c, hmem, spec, ps, p, hs, hp, hm, rfl⟩)

theorem block_ne_loop_of_setup {cs : List Component} {ls : List Line} {x : Line}
    (h : Program.setup cs = .ok ls) (hx : x ∈ ls) : x.instruction.block ≠ "Loop" := by
  rcases mem_setup h hx with rfl | rfl | ⟨c, -, spec, ps, p, -, -, -, rfl⟩ <;>
    simp [Instruction.block]

theorem steps_eq_ok {cs : List Component} (h : Program.steps as cs = .ok ss) :
    ∃ ls, Program.setup cs = .ok ls ∧
      (ls ++ ⟨0, .loop⟩ :: Program.expandAll 1 as).mapM Line.step = .ok ss := by
  obtain ⟨_, hb, hs⟩ := bind_eq_ok_iff.mp h
  obtain ⟨ls, hl, hb⟩ := bind_eq_ok_iff.mp hb
  obtain rfl := pure_eq_ok_iff.mp hb
  exact ⟨ls, hl, hs⟩

/-- A step of a program stands for a frame, for the mode of a pin or for a line of the actions. -/
theorem line_of_mem_steps {cs : List Component} {s : Step} (h : Program.steps as cs = .ok ss)
    (hs : s ∈ ss) : ∃ x : Line, x.step = .ok s ∧
      (x ∈ [⟨0, .program⟩, ⟨0, .setup⟩, ⟨0, .loop⟩] ∨ SetsPin cs x ∨
        x ∈ Program.expandAll 1 as) := by
  obtain ⟨ls, hl, hm⟩ := steps_eq_ok h
  obtain ⟨x, hx, hxs⟩ := exists_of_mem_mapM hm hs
  refine ⟨x, hxs, ?_⟩
  rcases List.mem_append.mp hx with hx | hx
  · rcases mem_setup hl hx with rfl | rfl | hp
    · exact .inl (by simp)
    · exact .inl (by simp)
    · exact .inr (.inl hp)
  · rcases List.mem_cons.mp hx with rfl | hx
    · exact .inl (by simp)
    · exact .inr (.inr hx)

/-- The steps of a program are read back as the effects of its actions. -/
theorem ofSteps?_of_steps {cs : List Component} (h : Program.steps as cs = .ok ss) :
    ∃ es, Performs id as es ∧ ofSteps? ss = some es := by
  obtain ⟨ls, hl, hs⟩ := steps_eq_ok h
  simp only [mapM_append_eq_ok_iff, List.mapM_cons, bind_eq_ok_iff, pure_eq_ok_iff] at hs
  obtain ⟨us, _, hu, ⟨s, hs, vs, hv, rfl⟩, rfl⟩ := hs
  obtain ⟨es, xs, hes, hvs, hn⟩ := performs_of_steps hv
  refine ⟨es, hes, ?_⟩
  have body : ((us ++ s :: vs).dropWhile (·.block ≠ some "Loop")).drop 1 = vs := by
    have before : ∀ u ∈ us, decide (u.block ≠ some "Loop") = true := by
      intro u hm
      obtain ⟨x, hx, hxu⟩ := exists_of_mem_mapM hu hm
      rw [block_of_step hxu]
      exact decide_eq_true fun hn => block_ne_loop_of_setup hl hx (Option.some.inj hn)
    have loop : s.block = some "Loop" := block_of_step hs
    rw [List.dropWhile_append_of_pos before, List.dropWhile_cons_of_neg (by simp [loop]),
      List.drop_one, List.tail_cons]
  have read : vs.mapM (fun s => (ofStep? s).map fun e => (s.level, e)) = some xs :=
    mapM_eq_some (hvs.imp fun s x hx => by rw [hx.1, Option.map_some, hx.2])
  have nested : nest xs = es.map (1, ·) := by
    have hx := hn [] nofun
    rwa [List.append_nil, nest, List.append_nil] at hx
  have effects : (nest xs).map Prod.snd = es := by
    rw [nested, List.map_map]
    exact List.map_id es
  rw [ofSteps?, body, read]
  exact congrArg some effects

end Effect

end BlockSketch
