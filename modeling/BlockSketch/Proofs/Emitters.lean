import BlockSketch.Proofs.Bodies
import BlockSketch.Proofs.Shapes

/-! # Agreement of programs and sketches

A program and a sketch of one prompt have the same effects, up to the blinks that take no time. A
program keeps them as they are, and a sketch makes each of them last a second.
-/

namespace BlockSketch

open Effect

variable {a : Action} {as : List Action} {s : List Char} {ss : List (List Char)}

namespace Action

/-- A light that blinks without taking time. -/
def Instant (a : Action) : Prop := a.Blinks ∧ a.duration.getD 0 = 0

instance : DecidablePred Instant := fun _ => inferInstanceAs (Decidable (_ ∧ _))

theorem lengthened_of_not_blinks (h : ¬ a.Blinks) : a.lengthened = a := if_neg h

theorem Instant.duration (h : a.Instant) : a.duration = none ∨ a.duration = some 0 := by
  obtain ⟨-, hd⟩ := h
  cases hn : a.duration with
  | none => exact .inl rfl
  | some d =>
    rw [hn] at hd
    exact .inr (congrArg some hd)

theorem lengthened_of_instant (h : a.Instant) :
    a.lengthened = { a with duration := some 1000 } := by
  have ht : Sketch.blinkDuration a.duration = some 1000 := by
    rcases h.duration with hd | hd <;> rw [hd] <;> rfl
  rw [lengthened, if_pos h.1, ht]

theorem lengthened_of_not_instant (h : ¬ a.Instant) : a.lengthened = a := by
  by_cases hb : a.Blinks
  · rcases a with ⟨_, _, _, _, _ | d, _, _, _⟩
    · exact absurd ⟨hb, rfl⟩ h
    · have hd : d ≠ 0 := fun hd => h ⟨hb, hd⟩
      simp [lengthened, hb, Sketch.blinkDuration]
  · exact lengthened_of_not_blinks hb

theorem faithful_of_not_blinks (hb : ¬ a.Blinks)
    (hs : Sketch.statements a = (Program.instructions a).flatMap carrying)
    (hp : ∀ i ∈ Program.instructions a, Plain i) : a.Faithful := by
  constructor <;> rwa [lengthened_of_not_blinks hb]

end Action

/-! ## Shapes -/

namespace Prompt

theorem WordOf.ne_motor {w : List Char} (h : WordOf s w) : String.ofList w ≠ "dc-motor" := by
  intro hw
  have hc : '-' ∈ w := by
    rw [← String.toList_ofList (l := w), hw]
    decide
  exact absurd (h.isWord '-' hc) (by decide)

/-- The word may name a servo, which is turned to the word for the level. -/
theorem WordOf.faithful_turn {w : List Char} (h : WordOf s w) (on : Bool) (pin : Option Int) :
    Action.Faithful {
      kind := .set, component := some (String.ofList w), pin := pin,
      value := some (.text (if on then "HIGH" else "LOW")) } := by
  have hv : (if on then "HIGH" else "LOW") ≠ "blink" := by cases on <;> decide
  refine Action.faithful_of_not_blinks ?_ ?_ ?_
  · rintro ⟨-, -, hb⟩
    exact hv (ActionValue.text.inj (Option.some.inj hb))
  · by_cases hs : String.ofList w = "servo"
    · simp [Sketch.statements, Sketch.setting, Program.instructions, Program.setting, hs, carrying]
    · simp [Sketch.statements, Sketch.setting, Program.instructions, Program.setting, hv, hs,
        h.ne_motor, carrying]
  · by_cases hs : String.ofList w = "servo"
    · have ho : OneLine (some (.text (if on then "HIGH" else "LOW"))) := by
        rintro _ ⟨⟩
        cases on <;> decide
      simpa [Program.instructions, Program.setting, hs, Plain] using ho
    · cases on <;> simp [Program.instructions, Program.setting, hs, h.ne_motor, Plain]

theorem Shape.once (h : Shape s a) : a.kind ≠ .repetition := by cases h <;> nofun

theorem Shape.faithful (h : Shape s a) : a.Faithful := by
  cases h with
  | blink pin duration =>
    refine ⟨rfl, ?_⟩
    simp [Program.instructions, Program.setting, Action.lengthened, Action.Blinks, Plain]
  | turn on pin hw => exact hw.faithful_turn on (pin.map Int.ofNat)
  | servo pin degrees =>
    refine ⟨rfl, ?_⟩
    simp [Program.instructions, Program.setting, Action.lengthened, Action.Blinks, Plain, OneLine]
  | motor pin duration =>
    refine Action.faithful_of_not_blinks (by simp [Action.Blinks]) ?_ ?_
    · by_cases hd : 0 < duration <;>
        simp [Sketch.statements, Sketch.setting, Program.instructions, Program.setting, hd,
          carrying, Sketch.switchesOn]
    · by_cases hd : 0 < duration <;> simp [Program.instructions, Program.setting, hd, Plain]
  | delay duration =>
    refine ⟨rfl, ?_⟩
    simp [Program.instructions, Action.lengthened, Action.Blinks, Plain]
  | @sensor w pin hw =>
    refine Action.faithful_of_not_blinks (by simp [Action.Blinks]) ?_ ?_
    · by_cases hs : String.ofList w = "ultrasonic" <;>
        simp [Sketch.statements, Program.instructions, hs, carrying]
    · by_cases hs : String.ofList w = "ultrasonic" <;> simp [Program.instructions, hs, Plain]
  | @print t ht _ =>
    refine ⟨rfl, ?_⟩
    have hn : '\n' ∉ t := fun hm => (ht _ hm).2 rfl
    simpa [Program.instructions, Action.lengthened, Action.Blinks, Plain, OneLine, Unbroken]
      using hn
  | @conditional t _ ht _ =>
    refine ⟨rfl, ?_⟩
    simpa [Program.instructions, Action.lengthened, Action.Blinks, Plain, Unbroken] using ht

theorem shapes_of_spoken (h : ∀ a ∈ as, Spoken ss a) : Leaves (fun a => ∃ s, Shape s a) as := by
  induction as with
  | nil => exact .nil
  | cons a as ih =>
    obtain ⟨⟨s, -, ha⟩, has⟩ := List.forall_mem_cons.mp h
    rcases ha with ha | ⟨b, k, -, hb, rfl⟩
    · exact .once ha.once ⟨s, ha⟩ (ih has)
    · exact .loop rfl (.once hb.once ⟨s, hb⟩ .nil) (ih has)

theorem leaves_of_spoken (h : ∀ a ∈ as, Spoken ss a) : Leaves Action.Faithful as :=
  (shapes_of_spoken h).imp fun _ ha => ha.elim fun _ => Shape.faithful

end Prompt

/-! ## Effects of both -/

theorem leaves_once_iff {P : Action → Prop} (h : a.kind ≠ .repetition) :
    Leaves P (a :: as) ↔ P a ∧ Leaves P as := by
  constructor
  · rintro (_ | ⟨_, ha, has⟩ | ⟨hk, _, _⟩)
    · exact ⟨ha, has⟩
    · exact absurd hk h
  · rintro ⟨ha, has⟩
    exact .once h ha has

theorem leaves_loop_iff {P : Action → Prop} (h : a.kind = .repetition) :
    Leaves P (a :: as) ↔ Leaves P a.actions ∧ Leaves P as := by
  constructor
  · rintro (_ | ⟨hk, _, _⟩ | ⟨_, ha, has⟩)
    · exact absurd h hk
    · exact ⟨ha, has⟩
  · rintro ⟨ha, has⟩
    exact .loop h ha has

theorem Leaves.congr {P Q R : Action → Prop} (h : Leaves R as) (hi : ∀ a, R a → (P a ↔ Q a)) :
    Leaves P as ↔ Leaves Q as := by
  induction h with
  | nil => exact iff_of_true .nil .nil
  | once hk ha _ ih => rw [leaves_once_iff hk, leaves_once_iff hk, hi _ ha, ih]
  | loop hk _ _ ihi ih => rw [leaves_loop_iff hk, leaves_loop_iff hk, ihi, ih]

theorem forall_mem_expandAll_iff {I : Instruction → Prop} {l : Int} (ho : ∀ n, I (.repetition n)) :
    (∀ x ∈ Program.expandAll l as, I x.instruction) ↔
      Leaves (fun a => ∀ i ∈ Program.instructions a, I i) as := by
  have forest : Leaves (fun _ => True) as := Leaves.of_forall (fun _ => trivial) as
  induction forest generalizing l with
  | nil => exact iff_of_true nofun .nil
  | once hk _ _ ih =>
    rw [expandAll_once hk, leaves_once_iff hk, List.forall_mem_append, List.forall_mem_map]
    exact and_congr_right' ih
  | loop hk _ _ ihi ih =>
    rw [expandAll_loop hk, leaves_loop_iff hk, List.forall_mem_cons, List.forall_mem_append,
      and_iff_right (ho _)]
    exact and_congr ihi ih

theorem forall_mem_placeAll_iff {P : Sketch.Statement → Prop} {l : Int} (ho : ∀ n, P (.openLoop n))
    (hc : P .closeLoop) : (∀ q ∈ Sketch.placeAll l as, P q.statement) ↔
      Leaves (fun a => ∀ st ∈ Sketch.statements a, P st) as := by
  -- The cases of `Leaves` are those of `placeAll`, and every list of actions has a trivial one.
  have forest : Leaves (fun _ => True) as := Leaves.of_forall (fun _ => trivial) as
  induction forest generalizing l with
  | nil => exact iff_of_true nofun .nil
  | once hk _ _ ih =>
    rw [placeAll_once hk, leaves_once_iff hk, List.forall_mem_append, List.forall_mem_map]
    exact and_congr_right' ih
  | loop hk _ _ ihi ih =>
    rw [placeAll_loop hk, leaves_loop_iff hk, List.forall_mem_cons, List.forall_mem_append,
      List.forall_mem_cons, and_iff_right (ho _), and_iff_right hc]
    exact and_congr ihi ih

namespace Effect

variable {f : Action → Action} {p d : String} {es es' xs ys : List Effect}

theorem Shows.rightUnique : Relator.RightUnique Shows := by
  intro i e e' h h'
  cases h <;> cases h' <;> simp_all

theorem instructions_of_blinks (h : a.Blinks) : Program.instructions a =
    [.setDigitalPin a.pin (some (.text "HIGH")), .delay a.duration,
      .setDigitalPin a.pin (some (.text "LOW")), .delay a.duration] := by
  obtain ⟨hk, hc, hv⟩ := h
  simp [Program.instructions, Program.setting, hk, hc, hv]

theorem length_instructions (a : Action) :
    (Program.instructions a.lengthened).length = (Program.instructions a).length := by
  by_cases h : a.Instant
  · have hb : Action.Blinks { a with duration := some 1000 } := h.1
    rw [Action.lengthened_of_instant h, instructions_of_blinks hb, instructions_of_blinks h.1]
    rfl
  · rw [Action.lengthened_of_not_instant h]

theorem effects_ne_of_instant (h : a.Instant)
    (hx : List.Forall₂ Shows (Program.instructions a) es)
    (hy : List.Forall₂ Shows (Program.instructions a.lengthened) es') : es ≠ es' := by
  rw [instructions_of_blinks h.1] at hx
  have hb : Action.Blinks { a with duration := some 1000 } := h.1
  rw [Action.lengthened_of_instant h, instructions_of_blinks hb] at hy
  obtain _ | ⟨_, _ | ⟨hd, _⟩⟩ := hx
  obtain _ | ⟨_, _ | ⟨hd', _⟩⟩ := hy
  cases hd with | @delay _ t ht => ?_
  cases hd' with | @delay _ t' ht' => ?_
  obtain rfl := write_eq_ok ht'
  intro he
  obtain rfl := Effect.delay.inj (List.cons.inj (List.cons.inj he).2).1
  rcases h.duration with hd | hd
  · rw [hd] at ht
    exact absurd (Except.ok.inj ht) (by decide)
  · rw [hd] at ht
    exact absurd (write_eq_ok ht) (by decide)

theorem effects_eq_iff_not_instant (hx : List.Forall₂ Shows (Program.instructions a) es)
    (hy : List.Forall₂ Shows (Program.instructions a.lengthened) es') :
    es = es' ↔ ¬ a.Instant := by
  constructor
  · intro he hi
    exact effects_ne_of_instant hi hx hy he
  · intro hi
    rw [Action.lengthened_of_not_instant hi] at hy
    exact List.right_unique_forall₂' Shows.rightUnique hx hy

theorem Performs.rightUnique : Relator.RightUnique (Performs f) := by
  intro as xs ys hx hy
  induction hx generalizing ys with
  | nil =>
    cases hy
    rfl
  | once hk hes _ ih =>
    cases hy with
    | once _ hes' hfs' => rw [List.right_unique_forall₂' Shows.rightUnique hes hes', ih hfs']
    | loop hk' => exact absurd hk' hk
  | loop hk hn _ _ ihi ih =>
    cases hy with
    | once hk' => exact absurd hk hk'
    | loop _ hn' hes' hfs' =>
      obtain rfl := Except.ok.inj (hn.symm.trans hn')
      rw [ihi hes', ih hfs']

theorem performs_blink (hk : a.kind ≠ .repetition) (hb : (f a).Blinks)
    (hp : pinText (f a).pin = .ok p) (hd : numberText (f a).duration = .ok d) :
    Performs f [a] [setPin p "HIGH", delay d, setPin p "LOW", delay d] := by
  have hs : List.Forall₂ Shows (Program.instructions (f a))
      [setPin p "HIGH", delay d, setPin p "LOW", delay d] := by
    rw [instructions_of_blinks hb]
    exact .cons (.setPin hp rfl) (.cons (.delay hd)
      (.cons (.setPin hp rfl) (.cons (.delay hd) .nil)))
  exact .once hk hs .nil

theorem performs_eq_iff (hx : Performs id as xs) (hy : Performs Action.lengthened as ys) :
    xs = ys ↔ Leaves (fun a => ¬ a.Instant) as := by
  induction hx generalizing ys with
  | nil =>
    cases hy
    exact iff_of_true rfl .nil
  | @once a _ _ _ hk hes _ ih =>
    cases hy with
    | once _ hes' hfs' =>
      have hl := hes.length_eq.symm.trans ((length_instructions _).symm.trans hes'.length_eq)
      rw [List.append_eq_append_iff_of_size_eq_left hl, ih hfs', leaves_once_iff hk,
        effects_eq_iff_not_instant (a := a) hes hes']
    | loop hk' => exact absurd hk' hk
  | loop hk hn _ _ ihi ih =>
    cases hy with
    | once hk' => exact absurd hk hk'
    | loop _ hn' hes' hfs' =>
      obtain rfl := Except.ok.inj (hn.symm.trans hn')
      rw [List.cons.injEq, repetition.injEq, eq_self, true_and, ihi hes', ih hfs',
        leaves_loop_iff hk]

/-- The program and the sketch of a prompt can be read back, and they have the same effects exactly
if no light of the prompt blinks without taking time. -/
theorem emitters_agree_iff {prompt sketch : String} {cs : List Component} {board : Board}
    {day : Date} {steps : List Step} (ha : Prompt.actions prompt = .ok as)
    (hp : Program.steps as cs = .ok steps) (hs : Sketch.render as cs board day = .ok sketch) :
    ∃ xs ys, ofSteps? steps = some xs ∧ ofSketch? sketch = some ys ∧
      (xs = ys ↔ Leaves (fun a => ¬ a.Instant) as) := by
  have hf : Leaves Action.Faithful as :=
    Prompt.leaves_of_spoken fun a hm => Prompt.spoken_of_actions ha hm
  obtain ⟨xs, hx, hxs⟩ := ofSteps?_of_steps hp
  obtain ⟨ys, hy, hys⟩ := ofSketch?_of_render hf hs
  exact ⟨xs, ys, hxs, hys, performs_eq_iff hx hy⟩

/-- A light that blinks for a while, repeatedly. -/
theorem emitters_agree_iff_repeated : ∃ as steps sketch xs,
    Prompt.actions "Repeat 2 times; blink led on pin 13 for 5 ms" = .ok as ∧
      Program.steps as [] = .ok steps ∧ Sketch.render as [] .uno ⟨2024, 5, 1⟩ = .ok sketch ∧
      ofSteps? steps = some xs ∧ ofSketch? sketch = some xs := by
  let blink : Action := {
    kind := .set, component := some "led", pin := some 13, value := some (.text "blink"),
    duration := some 5 }
  have ha : Prompt.actions "Repeat 2 times; blink led on pin 13 for 5 ms" =
      .ok [Action.repeating 2 blink] := rfl
  obtain ⟨steps, hp⟩ : ∃ steps, Program.steps [Action.repeating 2 blink] [] = .ok steps :=
    exists_ok_of_isOk (by decide +kernel)
  obtain ⟨sketch, hs⟩ : ∃ sketch,
      Sketch.render [Action.repeating 2 blink] [] .uno ⟨2024, 5, 1⟩ = .ok sketch :=
    exists_ok_of_isOk (by decide +kernel)
  obtain ⟨xs, ys, hxs, hys, h⟩ := emitters_agree_iff ha hp hs
  have hl : Leaves (fun a => ¬ a.Instant) [Action.repeating 2 blink] :=
    .loop rfl (.once nofun (by decide) .nil) .nil
  obtain rfl := h.mpr hl
  exact ⟨_, steps, sketch, xs, ha, hp, hs, hxs, hys⟩

/-- A light that blinks for no time: the program waits for 0 ms, and the sketch for a second. -/
theorem emitters_differ_instant : ∃ as steps sketch,
    Prompt.actions "blink led on pin 13 for 0 ms" = .ok as ∧ Program.steps as [] = .ok steps ∧
      Sketch.render as [] .uno ⟨2024, 5, 1⟩ = .ok sketch ∧
      ofSteps? steps = some [setPin "13" "HIGH", delay "0", setPin "13" "LOW", delay "0"] ∧
      ofSketch? sketch = some [setPin "13" "HIGH", delay "1000", setPin "13" "LOW", delay "1000"] ∧
      ofSteps? steps ≠ ofSketch? sketch := by
  let blink : Action := {
    kind := .set, component := some "led", pin := some 13, value := some (.text "blink"),
    duration := some 0 }
  have ha : Prompt.actions "blink led on pin 13 for 0 ms" = .ok [blink] := rfl
  obtain ⟨steps, hp⟩ : ∃ steps, Program.steps [blink] [] = .ok steps :=
    exists_ok_of_isOk (by decide +kernel)
  obtain ⟨sketch, hs⟩ : ∃ sketch, Sketch.render [blink] [] .uno ⟨2024, 5, 1⟩ = .ok sketch :=
    exists_ok_of_isOk (by decide +kernel)
  obtain ⟨xs, hx, hxs⟩ := ofSteps?_of_steps hp
  obtain ⟨ys, hy, hys⟩ := ofSketch?_of_render
    (Prompt.leaves_of_spoken fun a hm => Prompt.spoken_of_actions ha hm) hs
  have h13 : pinText (some 13) = .ok "13" := by decide +kernel
  have h0 : numberText (some 0) = .ok "0" := by decide +kernel
  have h1000 : numberText (some 1000) = .ok "1000" := by decide +kernel
  obtain rfl := hx.rightUnique (performs_blink (a := blink) nofun ⟨rfl, rfl, rfl⟩ h13 h0)
  obtain rfl := hy.rightUnique (performs_blink (a := blink) nofun ⟨rfl, rfl, rfl⟩ h13 h1000)
  exact ⟨[blink], steps, sketch, ha, hp, hs, hxs, hys, by simp [hxs, hys]⟩

end Effect

end BlockSketch
