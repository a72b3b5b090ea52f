import BlockSketch.Proofs.Beginnings
import BlockSketch.Proofs.Captures
import BlockSketch.Proofs.Halves

/-! # Angles of servos

The rule for servos gives an angle, and the rule that turns parts on and off gives a level, to servos
too. So the steps and the lines that turn servos show angles exactly if no servo is switched.
-/

namespace BlockSketch

open Text
open Sketch (Statement Placed)

variable {as : List Action} {a : Action} {s : List Char} {i : Instruction} {st : Statement}
  {x : Line} {k : Placed} {p : Option Int} {v : Option ActionValue} {q t w : String}

/-- The action turns a servo on or off. -/
def Action.Switched (a : Action) : Prop :=
  a.kind = .set ∧ a.component = some "servo" ∧ ∃ w ∈ ["HIGH", "LOW"], a.value = some (.text w)

/-- The text is a decimal number. -/
def IsDecimal (w : String) : Prop := ∃ n : Nat, w = toString n

/-- The sentence turns a servo to an angle. -/
def ShowsAngle (t : String) : Prop :=
  ∃ p q w, pinText p = .ok q ∧ IsDecimal w ∧ t = s!"Add Servo Write block for pin {q} to {w} degrees"

/-- The line calls `analogWrite`. -/
def WritesAnalog (t : List Char) : Prop := "analogWrite(".toList <+: unindented t

/-- The line turns a servo to an angle. -/
def WritesAngle (t : List Char) : Prop :=
  ∃ p q w, pinText p = .ok q ∧ IsDecimal w ∧
    unindented t = s!"analogWrite({q}, map({w}, 0, 180, 0, 255));".toList

/-! ## Values -/

/-- The value is written as a decimal number. -/
def IsAngle (v : Option ActionValue) : Prop := ∀ w, valueText v = .ok w → IsDecimal w

theorem isAngle_iff (h : valueText v = .ok w) : IsAngle v ↔ IsDecimal w := by
  constructor
  · exact fun hv => hv w h
  · intro hw u hu
    obtain rfl := Except.ok.inj (h.symm.trans hu)
    exact hw

theorem isAngle_number (n : Nat) : IsAngle (some (.number n)) :=
  fun _ h => ⟨n, (write_eq_ok h).symm⟩

theorem not_isDecimal {c : Char} (hc : c ∈ w.toList) (hn : ¬ IsSigned c) : ¬ IsDecimal w := by
  rintro ⟨n, rfl⟩
  have signed : ∀ c ∈ (toString (n : Int)).toList, IsSigned c := fun c => isSigned_of_mem_toString
  exact hn (signed c hc)

/-- The value that turns the servo, if the instruction turns one, is an angle. -/
def Instruction.Angled : Instruction → Prop
  | servoWrite _ v => IsAngle v
  | _ => True

/-- The value that turns the servo, if the statement turns one, is an angle. -/
def Sketch.Statement.Angled : Statement → Prop
  | servoWrite _ v => IsAngle v
  | _ => True

namespace Prompt

theorem Shape.angled_iff (h : Shape s a) :
    (∀ i ∈ Program.instructions a, i.Angled) ↔ ¬ a.Switched := by
  cases h with
  | @turn w on pin hw =>
    have plain : (if on then "HIGH" else "LOW") ≠ "blink" := by cases on <;> decide
    have level : ¬ IsDecimal (if on then "HIGH" else "LOW") := by
      cases on
      · exact not_isDecimal (c := 'L') (by decide) (by decide)
      · exact not_isDecimal (c := 'H') (by decide) (by decide)
    by_cases hs : String.ofList w = "servo"
    · -- The word names a servo, which is given the level instead of an angle.
      have word : (if on then "HIGH" else "LOW") ∈ ["HIGH", "LOW"] := by cases on <;> simp
      refine iff_of_false (fun h => level ?_) (not_not.mpr ⟨rfl, congrArg some hs, _, word, rfl⟩)
      exact h (.servoWrite (pin.map Int.ofNat) (some (.text (if on then "HIGH" else "LOW"))))
        (by simp [Program.instructions, Program.setting, hs]) _ rfl
    · refine iff_of_true ?_ fun hw => hs (Option.some.inj hw.2.1)
      simp [Program.instructions, Program.setting, hs, plain, hw.ne_motor, Instruction.Angled]
  | servo pin n =>
    refine iff_of_true ?_ (by simp [Action.Switched])
    simp [Program.instructions, Program.setting, Instruction.Angled, isAngle_number]
  | motor pin d =>
    refine iff_of_true ?_ (by simp [Action.Switched])
    by_cases hd : 0 < d <;>
      simp [Program.instructions, Program.setting, Instruction.Angled, hd]
  | @sensor w pin hw =>
    refine iff_of_true ?_ (by simp [Action.Switched])
    by_cases hs : String.ofList w = "ultrasonic" <;>
      simp [Program.instructions, Instruction.Angled, hs]
  | blink pin d =>
    refine iff_of_true ?_ (by simp [Action.Switched])
    simp [Program.instructions, Program.setting, Instruction.Angled]
  | delay | print | conditional =>
    refine iff_of_true ?_ (by simp [Action.Switched])
    simp [Program.instructions, Instruction.Angled]

end Prompt

/-! ## Steps -/

theorem showsAngle_iff (hq : pinText p = .ok q) :
    ShowsAngle s!"Add Servo Write block for pin {q} to {w} degrees" ↔ IsDecimal w := by
  constructor
  · rintro ⟨p', q', w', hq', hw, ht⟩
    obtain ⟨-, rfl⟩ := Effect.fillings_inj rfl (not_mem_pinText hq (by decide))
      (not_mem_pinText hq' (by decide)) ht
    exact hw
  · exact fun hw => ⟨p, q, w, hq, hw, rfl⟩

theorem showsAngle_step_iff {u : Step} (h : x.step = .ok u) :
    (u.block = some "Servo Write" → ShowsAngle u.text) ↔ x.instruction.Angled := by
  obtain ⟨t, ht, hu⟩ := bind_eq_ok_iff.mp h
  obtain rfl := pure_eq_ok_iff.mp hu
  cases hi : x.instruction with
  | servoWrite p v =>
    simp only [hi, Instruction.text, bind_eq_ok_iff, pure_eq_ok_iff] at ht
    obtain ⟨q, hq, w, hw, rfl⟩ := ht
    rw [Instruction.Angled, isAngle_iff hw, ← showsAngle_iff hq]
    exact forall_prop_of_true rfl
  | _ => exact iff_of_true (fun hb => absurd hb (by simp [Instruction.block])) trivial

/-! ## Lines -/

theorem writesAngle_iff {l : List Char} (hq : pinText p = .ok q)
    (hl : unindented l = s!"analogWrite({q}, map({w}, 0, 180, 0, 255));".toList) :
    WritesAngle l ↔ IsDecimal w := by
  constructor
  · rintro ⟨p', q', w', hq', hw, ht⟩
    obtain ⟨-, rfl⟩ := Effect.fillings_inj rfl (not_mem_pinText hq (by decide))
      (not_mem_pinText hq' (by decide)) (String.toList_inj.mp (hl.symm.trans ht))
    exact hw
  · exact fun hw => ⟨p, q, w, hq, hw, hl⟩

theorem writesAngle_placed_iff (h : k.text = .ok t) :
    (WritesAnalog t.toList → WritesAngle t.toList) ↔ k.statement.Angled := by
  have other (hn : k.statement.initial ≠ 'a') (ha : k.statement.Angled) :
      (WritesAnalog t.toList → WritesAngle t.toList) ↔ k.statement.Angled :=
    iff_of_true (fun hw => absurd (initial_of_isPrefix h hw) hn) ha
  cases hk : k.statement with
  | servoWrite p v =>
    obtain ⟨u, hu, ht⟩ := unindented_placed h
    simp only [hk, Statement.text, bind_eq_ok_iff, pure_eq_ok_iff] at hu
    obtain ⟨q, hq, w, hw, rfl⟩ := hu
    have written : WritesAnalog t.toList := by
      rw [WritesAnalog, ht]
      simp only [String.toList_append, List.append_assoc]
      exact List.prefix_append _ _
    rw [forall_prop_of_true written, writesAngle_iff hq ht]
    exact (isAngle_iff hw).symm
  | _ =>
    rw [hk] at other
    exact other (by simp [Statement.initial]) trivial

/-! ## Prompts -/

namespace Prompt

/-- The steps that turn a servo, and the lines of a sketch that do, give angles in decimal numbers
exactly if no servo is turned on or off. -/
theorem servo_angles_iff {prompt sketch : String} {cs ds : List Component} {board : Board} {day : Date}
    {steps : List Step} (ha : actions prompt = .ok as) (hp : Program.steps as cs = .ok steps)
    (hr : Sketch.render as ds board day = .ok sketch) :
    ((∀ u ∈ steps, u.block = some "Servo Write" → ShowsAngle u.text) ↔
      Leaves (fun a => ¬ a.Switched) as) ∧
    ∃ body, Effect.loopLines? sketch = some body ∧
      ((∀ t ∈ body, WritesAnalog t → WritesAngle t) ↔ Leaves (fun a => ¬ a.Switched) as) := by
  have made : ∀ a ∈ as, Spoken (spoken prompt) a := fun a => spoken_of_actions ha
  have lines : (∀ x ∈ Program.expandAll 1 as, x.instruction.Angled) ↔
      Leaves (fun a => ¬ a.Switched) as := by
    rw [forall_mem_expandAll_iff fun n => trivial]
    exact (shapes_of_spoken made).congr fun a ha => ha.elim fun _ => Shape.angled_iff
  constructor
  · obtain ⟨ls, hl, hm⟩ := Effect.steps_eq_ok hp
    have before : ∀ x ∈ ls, x.instruction.Angled := by
      intro x hx
      rcases Effect.mem_setup hl hx with rfl | rfl | ⟨c, -, spec, ps, p, -, -, -, rfl⟩ <;> trivial
    rw [forall_mem_iff_of_forall₂ (mapM_eq_ok_iff.mp hm) fun x _ u => showsAngle_step_iff,
      List.forall_mem_append, List.forall_mem_cons, and_iff_right before,
      and_iff_right (by trivial), lines]
  · obtain ⟨body, hb, found⟩ := Effect.loopLines?_of_render hr
    refine ⟨_, found fun t => unbroken_of_mem_body (leaves_of_spoken made) hb, ?_⟩
    rw [List.forall_mem_map,
      forall_mem_iff_of_forall₂ (mapM_eq_ok_iff.mp hb) fun q _ t => writesAngle_placed_iff, ← lines]
    refine (forall_lines_iff_forall_placed (fun i hi => ?_) (by simp [Instruction.Angled])
      (fun n => Iff.rfl) trivial (leaves_of_spoken made)).symm
    cases i <;> simp [carrying, Instruction.Angled, Statement.Angled]

/-- A servo that is turned to an angle, repeatedly. -/
def swept : List Action := [Action.repeating 2 {
  kind := .set, component := some "servo", pin := some 9, value := some (.number 90) }]

theorem servo_angles_iff_swept : ∃ steps sketch body,
    actions "Repeat 2 times; set servo on pin 9 to 90 degrees" = .ok swept ∧
      Program.steps swept [] = .ok steps ∧ Sketch.render swept [] .uno ⟨2024, 5, 1⟩ = .ok sketch ∧
      Effect.loopLines? sketch = some body ∧
      (∀ u ∈ steps, u.block = some "Servo Write" → ShowsAngle u.text) ∧
      ∀ t ∈ body, WritesAnalog t → WritesAngle t := by
  have ha : actions "Repeat 2 times; set servo on pin 9 to 90 degrees" = .ok swept := rfl
  obtain ⟨steps, hp⟩ := exists_ok_of_isOk (x := Program.steps swept []) (by decide +kernel)
  obtain ⟨sketch, hr⟩ := exists_ok_of_isOk (x := Sketch.render swept [] .uno ⟨2024, 5, 1⟩)
    (by decide +kernel)
  have angles : Leaves (fun a => ¬ a.Switched) swept :=
    .loop rfl (.once (by simp) (by simp [Action.Switched]) .nil) .nil
  obtain ⟨shown, body, hb, written⟩ := servo_angles_iff ha hp hr
  exact ⟨steps, sketch, body, ha, hp, hr, hb, shown.mpr angles, written.mpr angles⟩

/-- A servo that is turned on, and no pin is given. -/
def switched : List Action := [{
  kind := .set, component := some "servo", value := some (.text "HIGH") }]

/-- Its step and its line have the word for the level in place of an angle. -/
theorem servo_angles_switched : ∃ steps sketch, actions "turn on servo" = .ok switched ∧
    Program.steps switched [] = .ok steps ∧ Sketch.render switched [] .uno ⟨2024, 5, 1⟩ = .ok sketch ∧
      ⟨1, "Add Servo Write block for pin ? to HIGH degrees", .action, some "Servo Write"⟩ ∈ steps ∧
      ¬ ShowsAngle "Add Servo Write block for pin ? to HIGH degrees" ∧
      Effect.loopLines? sketch = some ["  analogWrite(?, map(HIGH, 0, 180, 0, 255));".toList] ∧
      WritesAnalog "  analogWrite(?, map(HIGH, 0, 180, 0, 255));".toList ∧
      ¬ WritesAngle "  analogWrite(?, map(HIGH, 0, 180, 0, 255));".toList := by
  have ha : actions "turn on servo" = .ok switched := rfl
  have hp : Program.steps switched [] = .ok [
      ⟨0, "Add Program block", .frame, some "Program"⟩, ⟨0, "Add Setup block", .frame, some "Setup"⟩,
      ⟨0, "Add Loop block (repeat forever)", .frame, some "Loop"⟩,
      ⟨1, "Add Servo Write block for pin ? to HIGH degrees", .action, some "Servo Write"⟩] := rfl
  obtain ⟨sketch, hr⟩ := exists_ok_of_isOk (x := Sketch.render switched [] .uno ⟨2024, 5, 1⟩)
    (by decide +kernel)
  obtain ⟨body, hb, found⟩ := Effect.loopLines?_of_render hr
  obtain rfl : body = ["  analogWrite(?, map(HIGH, 0, 180, 0, 255));"] :=
    Except.ok.inj (hb.symm.trans rfl)
  have level : ¬ IsDecimal "HIGH" := not_isDecimal (c := 'H') (by decide) (by decide)
  have missing : pinText none = .ok "?" := rfl
  refine ⟨_, sketch, ha, hp, hr, by simp, ?_, found (by decide), ?_, ?_⟩
  · exact fun h => level ((showsAngle_iff missing).mp h)
  · exact ⟨"?, map(HIGH, 0, 180, 0, 255));".toList, rfl⟩
  · exact fun h => level ((writesAngle_iff missing rfl).mp h)

end Prompt

end BlockSketch
