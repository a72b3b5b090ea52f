import BlockSketch.Proofs.Emitters
import Mathlib.Data.List.Induction

/-! # Numerals of sentences

Which runs of digits the sentences of a prompt are read with does not depend on their length. A
sentence can be read exactly if none of its runs is too long, and its instructions can be written
exactly if its duration, in milliseconds, is not too long either.
-/

namespace BlockSketch

open Text

/-! ## Decimal numbers -/

namespace Numeral

variable {ds : List Char} {m n : Nat} {k : Int}

/-- The digits are few enough to be read as a number. -/
def Short (ds : List Char) : Prop := ds.length ≤ maxDigits

/-- The number has few enough digits to be written. -/
def Printable (n : Int) : Prop := n.natAbs < powerOfTen maxDigits

theorem powerOfTen_le (h : m ≤ n) : powerOfTen m ≤ powerOfTen n :=
  Nat.pow_le_pow_right (Nat.succ_pos 9) h

theorem printable_of_lt (h : n < powerOfTen m) (hm : m ≤ maxDigits) : Printable n :=
  h.trans_le (powerOfTen_le hm)

theorem printable_zero : Printable 0 := powerOfTen_pos maxDigits

theorem printable_one : Printable 1 := printable_of_lt (n := 1) (m := 1) (by decide) (by decide)

theorem digitsValue_lt (ds : List Char) : digitsValue ds < powerOfTen ds.length := by
  induction ds using List.reverseRecOn with
  | nil => exact Nat.one_pos
  | append_singleton ds c ih =>
    have hc : (digitValue? c).getD 0 < 10 := by
      cases h : digitValue? c with
      | none => exact Nat.succ_pos 9
      | some v => exact digitValue?_lt h
    rw [digitsValue_concat, List.length_append, List.length_singleton, powerOfTen_succ]
    omega

theorem printable_digitsValue (h : Short ds) : Printable (digitsValue ds) :=
  printable_of_lt (digitsValue_lt ds) h

theorem succeeds_ofDigits (ds : List Char) :
    Succeeds (ofDigits ds) (Short ds) fun n => n = digitsValue ds ∧ Printable n := by
  unfold ofDigits
  split
  · next h => exact Succeeds.error.congr (iff_of_false id (Nat.not_le.mpr h))
  · next h =>
    have hs : Short ds := Nat.not_lt.mp h
    exact (Succeeds.pure ⟨rfl, printable_digitsValue hs⟩).congr (iff_of_true trivial hs)

theorem succeeds_write (k : Int) : Succeeds (write k) (Printable k) fun _ => True := by
  unfold write
  split
  · next h => exact Succeeds.error.congr (iff_of_false id (Nat.not_lt.mpr h))
  · next h => exact (Succeeds.pure trivial).congr (iff_of_true trivial (Nat.not_le.mp h))

end Numeral

open Numeral

/-! ## Instructions -/

def ActionValue.numbers : ActionValue → List Int
  | .text _ => []
  | .number n => [n]

/-- The numbers that stand in the sentence of an instruction. -/
def Instruction.numbers : Instruction → List Int
  | .setDigitalPin pin value => pin.toList ++ value.toList.flatMap ActionValue.numbers
  | .delay duration => duration.toList
  | .servoWrite pin angle => pin.toList ++ angle.toList.flatMap ActionValue.numbers
  | .ultrasonicRead pin => pin.toList
  | .digitalRead pin => pin.toList
  | .lcdPrint text => text.toList.flatMap ActionValue.numbers
  | .repetition count => count.toList
  | .program | .setup | .loop | .pinMode .. | .conditional _ => []

theorem succeeds_numberText (n : Option Int) :
    Succeeds (numberText n) (∀ k ∈ n.toList, Printable k) fun _ => True := by
  cases n with
  | none => exact (Succeeds.pure trivial).congr (by simp)
  | some n => exact (succeeds_write n).congr (by simp)

theorem succeeds_pinText (p : Option Int) :
    Succeeds (pinText p) (∀ k ∈ p.toList, Printable k) fun _ => True := by
  cases p with
  | none => exact (Succeeds.pure trivial).congr (by simp)
  | some n => exact (succeeds_write n).congr (by simp)

theorem succeeds_valueText (v : Option ActionValue) : Succeeds (valueText v)
    (∀ k ∈ v.toList.flatMap ActionValue.numbers, Printable k) fun _ => True := by
  rcases v with _ | _ | n
  · exact (Succeeds.pure trivial).congr (by simp)
  · exact (Succeeds.pure trivial).congr (by simp [ActionValue.numbers])
  · exact (succeeds_write n).congr (by simp [ActionValue.numbers])

/-- An instruction can be written exactly if its numbers can. -/
theorem succeeds_text (i : Instruction) :
    Succeeds i.text (∀ n ∈ i.numbers, Printable n) fun _ => True := by
  have two {p : Option Int} {v : Option ActionValue} {f : String → String → String} :
      Succeeds (do return f (← pinText p) (← valueText v))
        (∀ k ∈ p.toList ++ v.toList.flatMap ActionValue.numbers, Printable k) fun _ => True :=
    ((succeeds_pinText p).bind fun _ _ =>
      (succeeds_valueText v).bind_pure fun _ _ => trivial).congr List.forall_mem_append.symm
  cases i with
  | setDigitalPin pin value => exact two
  | servoWrite pin angle => exact two
  | delay duration => exact (succeeds_numberText duration).bind_pure fun _ _ => trivial
  | repetition count => exact (succeeds_numberText count).bind_pure fun _ _ => trivial
  | ultrasonicRead pin => exact (succeeds_pinText pin).bind_pure fun _ _ => trivial
  | digitalRead pin => exact (succeeds_pinText pin).bind_pure fun _ _ => trivial
  | lcdPrint text => exact (succeeds_valueText text).bind_pure fun _ _ => trivial
  | program | setup | loop | pinMode | conditional =>
    exact (Succeeds.pure trivial).congr (by simp [Instruction.numbers])

namespace Prompt

/-! ## Runs of digits -/

/-- The runs of digits that a sentence is read with: those of numbers, and that of a duration. -/
structure Numerals where
  numbers : List (List Char)
  span : Option Span

namespace Numerals

/-- The runs are short enough to be read. -/
def Legible (x : Numerals) : Prop :=
  (∀ ds ∈ x.numbers, Short ds) ∧ ∀ t ∈ x.span, Short t.digits

/-- The duration is so short that its milliseconds can be written. -/
def Brief (x : Numerals) : Prop :=
  ∀ t ∈ x.span, t.seconds = true → Printable (digitsValue t.digits * 1000 : Nat)

end Numerals

/-- The runs of digits that a rule finds in a sentence; `none` if it does not apply. -/
def Rule.numerals? (s : List Char) : Rule → Option Numerals
  | blink =>
    if !occurs "blink".toList s || !occurs "led".toList s then none
    else some ⟨((search pinAfterWord? s).map Prod.fst).toList, search span? s⟩
  | turn => (search turnAt? s).map fun t => ⟨t.pin.toList, none⟩
  | servo => (search servoAt? s).map fun t => ⟨t.pin.toList ++ [t.degrees], none⟩
  | motor => (search motorAt? s).map fun t => ⟨t.pin.toList, t.span⟩
  | delay => (search delayAt? s).map fun t => ⟨[], some t⟩
  | sensor => (search sensorAt? s).map fun t => ⟨t.pin.toList, none⟩
  | print => (search printAt? s).map fun _ => ⟨[], none⟩
  | conditional => (search ifAt? s).map fun _ => ⟨[], none⟩

/-- The runs of digits that a sentence is read with: the count of a directive, or those that the
first rule that applies finds. -/
def numerals? (s : List Char) : Option Numerals :=
  match search repeatAt? s with
  | some ds => some ⟨[ds], none⟩
  | none => Rule.all.findSome? (Rule.numerals? s)

/-- The instructions of the action can be written. -/
def Writable (a : Action) : Prop :=
  ∀ i ∈ Program.instructions a, ∀ n ∈ i.numbers, Printable n

/-- The action that is made with some runs of digits; none is made without them. -/
inductive MadeWith : Option Numerals → Option Action → Prop where
  | none : MadeWith none none
  | some {x : Numerals} {a : Action} : a.kind ≠ .repetition → (Writable a ↔ x.Brief) →
      MadeWith (some x) (some a)

theorem succeeds_optionalNumber (o : Option (List Char)) :
    Succeeds (optionalNumber o) (∀ ds ∈ o.toList, Short ds) fun p => ∀ n ∈ p, Printable n := by
  rcases o with _ | _ | ⟨c, ds⟩
  · exact (Succeeds.pure (by simp)).congr (by simp)
  · exact (Succeeds.pure (by simp)).congr (by simp [Short])
  · have hn : Succeeds (do return (← ofDigits (c :: ds) : Int)) (Short (c :: ds)) Printable :=
      (succeeds_ofDigits (c :: ds)).bind_pure fun n hn => hn.2
    exact (hn.map fun n hn => by simpa using hn).congr (by simp)

theorem succeeds_milliseconds (t : Span) :
    Succeeds t.milliseconds (Short t.digits) fun d => 0 ≤ d ∧
      (Printable d ↔ (t.seconds = true → Printable (digitsValue t.digits * 1000 : Nat))) := by
  refine (succeeds_ofDigits t.digits).bind_pure fun n hn => ?_
  obtain ⟨rfl, hn⟩ := hn
  cases t.seconds with
  | true => exact ⟨Int.mul_nonneg (Int.natCast_nonneg _) (by decide), by simp⟩
  | false => simp [hn]

/-- The duration of a sentence comes first; `d` stands in if there is none. -/
theorem succeeds_span {o : Option Span} {d : Int} {f : Int → Except NumeralFault (Option Action)}
    {M : Prop} {Q : Option Action → Prop} (h0 : 0 ≤ d) (hd : Printable d)
    (hf : ∀ d, 0 ≤ d → (Printable d ↔ ∀ t ∈ o, t.seconds = true →
      Printable (digitsValue t.digits * 1000 : Nat)) → Succeeds (f d) M Q) :
    Succeeds (match o with | some t => t.milliseconds >>= f | none => pure d >>= f)
      ((∀ t ∈ o, Short t.digits) ∧ M) Q := by
  cases o with
  | none => exact (hf d h0 (by simpa using hd)).congr (by simp)
  | some t =>
    exact ((succeeds_milliseconds t).bind fun d hd => hf d hd.1 (by simpa using hd.2)).congr
      (by simp)

/-! ## Rules -/

section

variable {p : Option Int} {d : Int} {v w : String}

theorem writable_blink : Writable {
    kind := .set, component := some "led", pin := p, value := some (.text "blink"),
    duration := some d } ↔ (∀ n ∈ p, Printable n) ∧ Printable d := by
  simp only [Writable, Program.instructions, Program.setting]
  simpa [Instruction.numbers, ActionValue.numbers] using fun hp hd => ⟨hp, hd⟩

theorem writable_turn (hv : v ≠ "blink") : Writable {
    kind := .set, component := some w, pin := p, value := some (.text v) } ↔
      ∀ n ∈ p, Printable n := by
  simp only [Writable, Program.instructions, Program.setting]
  split
  · simp_all
  · split
    · simp [Instruction.numbers, ActionValue.numbers]
    · split <;> simp [Instruction.numbers, ActionValue.numbers]

theorem writable_servo : Writable {
    kind := .set, component := some "servo", pin := p, value := some (.number d) } ↔
      (∀ n ∈ p, Printable n) ∧ Printable d := by
  simp only [Writable, Program.instructions, Program.setting]
  simp [Instruction.numbers, ActionValue.numbers, forall_and, or_imp]

/-- Without time to run the motor is not stopped, and a duration of zero can be written. -/
theorem writable_motor (h : 0 ≤ d) : Writable {
    kind := .set, component := some "dc-motor", pin := p, value := some (.text "HIGH"),
    duration := some d } ↔ (∀ n ∈ p, Printable n) ∧ Printable d := by
  simp only [Writable, Program.instructions, Program.setting]
  by_cases hd : 0 < d
  · simpa [Instruction.numbers, ActionValue.numbers, hd] using fun hp _ => hp
  · obtain rfl : d = 0 := Int.le_antisymm (Int.not_lt.mp hd) h
    simp [Instruction.numbers, ActionValue.numbers, printable_zero]

theorem writable_delay : Writable { kind := .delay, duration := some d } ↔ Printable d := by
  simp [Writable, Program.instructions, Instruction.numbers]

theorem writable_sensor :
    Writable { kind := .read, component := some w, pin := p } ↔ ∀ n ∈ p, Printable n := by
  simp only [Writable, Program.instructions]
  split <;> simp [Instruction.numbers]

end

theorem succeeds_blink (s : List Char) : Succeeds (blink s)
    (∀ x ∈ Rule.blink.numerals? s, x.Legible) (MadeWith (Rule.blink.numerals? s)) := by
  simp only [blink, Rule.numerals?]
  split
  · exact (Succeeds.pure .none).congr (by simp)
  · have hd : Printable standardBlink :=
      printable_of_lt (n := 1000) (m := 4) (by decide) (by decide)
    refine (succeeds_span (by decide) hd fun d _ hd =>
      (succeeds_optionalNumber _).bind_pure fun p hp => MadeWith.some (by simp) ?_).congr ?_
    · rw [writable_blink, and_iff_right hp]
      exact hd
    · simp [Numerals.Legible, and_comm]

theorem succeeds_turn (s : List Char) : Succeeds (turn s)
    (∀ x ∈ Rule.turn.numerals? s, x.Legible) (MadeWith (Rule.turn.numerals? s)) := by
  simp only [turn, Rule.numerals?]
  cases search turnAt? s with
  | none => exact (Succeeds.pure .none).congr (by simp)
  | some t =>
    refine ((succeeds_optionalNumber t.pin).bind_pure fun p hp =>
      MadeWith.some (by simp) ?_).congr ?_
    · rw [writable_turn (by cases t.on <;> decide), iff_true_intro hp]
      simp [Numerals.Brief]
    · simp [Numerals.Legible]

theorem succeeds_servo (s : List Char) : Succeeds (servo s)
    (∀ x ∈ Rule.servo.numerals? s, x.Legible) (MadeWith (Rule.servo.numerals? s)) := by
  simp only [servo, Rule.numerals?]
  cases search servoAt? s with
  | none => exact (Succeeds.pure .none).congr (by simp)
  | some t =>
    refine ((succeeds_optionalNumber t.pin).bind fun p hp =>
      (succeeds_ofDigits t.degrees).bind_pure fun n hn => MadeWith.some (by simp) ?_).congr ?_
    · rw [writable_servo, and_iff_right hp, iff_true_intro hn.2]
      simp [Numerals.Brief]
    · simp [Numerals.Legible, or_imp, forall_and]

theorem succeeds_motor (s : List Char) : Succeeds (motor s)
    (∀ x ∈ Rule.motor.numerals? s, x.Legible) (MadeWith (Rule.motor.numerals? s)) := by
  simp only [motor, Rule.numerals?]
  cases search motorAt? s with
  | none => exact (Succeeds.pure .none).congr (by simp)
  | some t =>
    refine (succeeds_span (Int.le_refl 0) printable_zero fun d h0 hd =>
      (succeeds_optionalNumber t.pin).bind_pure fun p hp => MadeWith.some (by simp) ?_).congr ?_
    · rw [writable_motor h0, and_iff_right hp]
      exact hd
    · simp [Numerals.Legible, and_comm]

theorem succeeds_delay (s : List Char) : Succeeds (delay s)
    (∀ x ∈ Rule.delay.numerals? s, x.Legible) (MadeWith (Rule.delay.numerals? s)) := by
  simp only [delay, Rule.numerals?]
  cases search delayAt? s with
  | none => exact (Succeeds.pure .none).congr (by simp)
  | some t =>
    refine ((succeeds_milliseconds t).bind_pure fun d hd =>
      MadeWith.some (by simp) (writable_delay.trans ?_)).congr ?_
    · simpa [Numerals.Brief] using hd.2
    · simp [Numerals.Legible]

theorem succeeds_sensor (s : List Char) : Succeeds (sensor s)
    (∀ x ∈ Rule.sensor.numerals? s, x.Legible) (MadeWith (Rule.sensor.numerals? s)) := by
  simp only [sensor, Rule.numerals?]
  cases search sensorAt? s with
  | none => exact (Succeeds.pure .none).congr (by simp)
  | some t =>
    refine ((succeeds_optionalNumber t.pin).bind_pure fun p hp =>
      MadeWith.some (by simp) (writable_sensor.trans ?_)).congr ?_
    · simpa [Numerals.Brief] using hp
    · simp [Numerals.Legible]

/-- A rule that reads no number cannot fail. -/
theorem succeeds_without {β : Type} (o : Option β) {f : β → Action}
    (h : ∀ t, (f t).kind ≠ .repetition ∧ Writable (f t)) :
    Succeeds (.ok (o.map f) : Except NumeralFault (Option Action))
      (∀ x ∈ o.map fun _ => (⟨[], none⟩ : Numerals), x.Legible)
      (MadeWith (o.map fun _ => ⟨[], none⟩)) := by
  cases o with
  | none => exact (Succeeds.pure .none).congr (by simp)
  | some t =>
    have hw : Writable (f t) ↔ Numerals.Brief ⟨[], none⟩ := by simp [(h t).2, Numerals.Brief]
    exact (Succeeds.pure (.some (h t).1 hw)).congr (by simp [Numerals.Legible])

/-- A rule can be applied to a sentence exactly if the runs of digits that it finds are short
enough. -/
theorem succeeds_apply (r : Rule) (s : List Char) :
    Succeeds (r.apply s) (∀ x ∈ r.numerals? s, x.Legible) (MadeWith (r.numerals? s)) := by
  cases r with
  | blink => exact succeeds_blink s
  | turn => exact succeeds_turn s
  | servo => exact succeeds_servo s
  | motor => exact succeeds_motor s
  | delay => exact succeeds_delay s
  | sensor => exact succeeds_sensor s
  | print =>
    refine succeeds_without (search printAt? s) fun t => ⟨by simp, ?_⟩
    simp [Writable, Program.instructions, Instruction.numbers, ActionValue.numbers]
  | conditional =>
    refine succeeds_without (search ifAt? s) fun t => ⟨by simp, ?_⟩
    simp [Writable, Program.instructions, Instruction.numbers]

/-! ## Sentences -/

theorem succeeds_firstOf (s : List Char) (rs : List Rule) :
    Succeeds (firstOf s rs) (∀ x ∈ rs.findSome? (Rule.numerals? s), x.Legible)
      fun o => MadeWith (rs.findSome? (Rule.numerals? s)) (o.map Prod.snd) := by
  induction rs with
  | nil => exact (Succeeds.pure .none).congr (by simp)
  | cons r rs ih =>
    have hr := succeeds_apply r s
    rw [firstOf, List.findSome?_cons]
    cases h : r.numerals? s with
    | none =>
      rw [h] at hr
      refine (hr.bind fun o ho => ?_).congr (and_iff_right (by simp))
      cases ho
      exact ih
    | some x =>
      rw [h] at hr
      refine (hr.bind fun o ho => ?_).congr (and_iff_left trivial)
      cases ho with
      | some hk hw => exact Succeeds.pure (.some hk hw)

/-- What a clause has to do with the runs of digits of its sentence. -/
inductive HeardWith : Option Numerals → Clause → Prop where
  | unknown : HeardWith none .unknown
  | directive {ds : List Char} {k : Nat} : Printable k → HeardWith (some ⟨[ds], none⟩) (.directive k)
  | action {x : Numerals} {r : Rule} {a : Action} : a.kind ≠ .repetition → (Writable a ↔ x.Brief) →
      HeardWith (some x) (.action r a)

/-- A sentence can be read exactly if the runs of digits that it is read with are short enough. -/
theorem succeeds_clause (s : List Char) :
    Succeeds (clause s) (∀ x ∈ numerals? s, x.Legible) (HeardWith (numerals? s)) := by
  unfold clause numerals?
  cases search repeatAt? s with
  | some ds =>
    refine ((succeeds_ofDigits ds).map fun k hk => .directive hk.2).congr ?_
    simp [Numerals.Legible]
  | none =>
    refine ((succeeds_firstOf s Rule.all).bind fun o ho => ?_).congr (and_iff_left trivial)
    dsimp only at ho ⊢
    generalize Rule.all.findSome? (Rule.numerals? s) = x at ho ⊢
    rcases o with _ | ⟨r, a⟩
    · cases ho
      exact .pure .unknown
    · cases ho with
      | some hk hw => exact .pure (.action hk hw)

/-! ## Prompts -/

/-- The runs of digits that a prompt is read with are short enough, and its durations can be
written in milliseconds. -/
def Manageable (prompt : String) : Prop :=
  ∀ s ∈ spoken prompt, ∀ x ∈ numerals? s, x.Legible ∧ x.Brief

/-- The numbers in all lines can be written. -/
def LinesWritable (ls : List Line) : Prop := ∀ l ∈ ls, ∀ n ∈ l.instruction.numbers, Printable n

variable {ss : List (List Char)} {cs : List Clause} {as : List Action} {a : Action} {level : Int}
  {k n : Nat}

theorem linesWritable_once (h : a.kind ≠ .repetition) :
    LinesWritable (Program.expandAll level (a :: as)) ↔
      Writable a ∧ LinesWritable (Program.expandAll level as) := by
  rw [expandAll_once h, LinesWritable, List.forall_mem_append, List.forall_mem_map]
  rfl

theorem linesWritable_repeating (h : a.kind ≠ .repetition) (hk : Printable k) :
    LinesWritable (Program.expandAll level (Action.repeating k a :: as)) ↔
      Writable a ∧ LinesWritable (Program.expandAll level as) := by
  have inner : LinesWritable (Program.expandAll (level + 1) (Action.repeating k a).actions) ↔
      Writable a := by
    rw [show (Action.repeating k a).actions = [a] from rfl, linesWritable_once h]
    simp [LinesWritable, Program.expandAll]
  have count : ∀ n ∈ Instruction.numbers (.repetition (Action.repeating k a).count),
      Printable n := by
    simpa [Action.repeating, Instruction.numbers] using hk
  rw [expandAll_loop rfl, LinesWritable, List.forall_mem_cons, List.forall_mem_append,
    and_iff_right count]
  exact and_congr_left fun _ => inner

/-- The actions of clauses can be written exactly if the durations of their sentences can. -/
theorem linesWritable_assemble (h : List.Forall₂ (fun s c => HeardWith (numerals? s) c) ss cs)
    (hn : Printable n) : LinesWritable (Program.expandAll level (assemble n cs)) ↔
      ∀ s ∈ ss, ∀ x ∈ numerals? s, x.Brief := by
  induction h generalizing n with
  | nil => simp [LinesWritable, assemble, Program.expandAll]
  | @cons s c ss cs hc _ ih =>
    rw [List.forall_mem_cons]
    generalize numerals? s = o at hc ⊢
    cases hc with
    | unknown => exact (ih hn).trans (and_iff_right (by simp)).symm
    | @directive ds k hk =>
      -- a count that was read can be written
      exact (ih hk).trans (and_iff_right (by simp [Numerals.Brief])).symm
    | @action x r a hk hw =>
      rw [assemble]
      have hx : (∀ y ∈ some x, y.Brief) ↔ Writable a := by simp [hw]
      rw [hx, ← ih printable_one]
      split
      · exact linesWritable_repeating hk hn
      · exact linesWritable_once hk

/-- The actions of a prompt can be read exactly if the runs of digits of its sentences are short
enough. -/
theorem succeeds_actions (prompt : String) :
    Succeeds (actions prompt) (∀ s ∈ spoken prompt, ∀ x ∈ numerals? s, x.Legible) fun as =>
      LinesWritable (Program.expandAll 1 as) ↔
        ∀ s ∈ spoken prompt, ∀ x ∈ numerals? s, x.Brief := by
  have hc : Succeeds (clauses prompt.toList)
      (∀ t ∈ segments prompt.toList, ∀ x ∈ numerals? (lower t), x.Legible)
      (List.Forall₂ (fun t c => HeardWith (numerals? (lower t)) c) (segments prompt.toList)) :=
    Succeeds.mapM fun t _ => succeeds_clause (lower t)
  refine (hc.map fun cs hcs => ?_).congr ?_
  · exact linesWritable_assemble (List.forall₂_map_left_iff.mpr hcs) printable_one
  · simp [spoken]

end Prompt

end BlockSketch
