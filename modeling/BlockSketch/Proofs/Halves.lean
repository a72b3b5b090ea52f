import BlockSketch.Proofs.Comments
import BlockSketch.Proofs.Generation
import BlockSketch.Proofs.Sending

/-! # Halves of characters in programs and sketches

The steps of a prompt and the statements of its sketch hold the same texts and, up to the length of a
blink, the same numbers. So if the ones can be written the others can, and halves of characters are in
both or in neither. The records of the actions hold these texts too.
-/

namespace BlockSketch

open Json Numeral
open Sketch (Statement Placed)

variable {as : List Action} {a : Action} {s lead tail t : String} {ls : List String} {level : Int}
  {n : Option Int} {v : Option ActionValue}

/-! ## Texts -/

theorem whole_after_iff (hl : Whole lead.toList) : Whole (lead ++ s).toList ↔ Whole s.toList := by
  simp [hl]

theorem whole_around (hl : Whole lead.toList) (hs : Whole s.toList) (ht : Whole tail.toList) :
    Whole (lead ++ s ++ tail).toList := by
  simp [hl, hs, ht]

/-- The value, if it is a text, is whole. -/
def WholeValue (v : Option ActionValue) : Prop := ∀ s, v = some (.text s) → Whole s.toList

@[simp]
theorem wholeValue_none : WholeValue none := by
  rintro s ⟨⟩

@[simp]
theorem wholeValue_text : WholeValue (some (.text s)) ↔ Whole s.toList := by
  simp [WholeValue]

@[simp]
theorem wholeValue_number (n : Int) : WholeValue (some (.number n)) := by
  rintro s ⟨⟩

theorem whole_valueWords_iff : (∀ s ∈ valueWords v, Whole s.toList) ↔ WholeValue v := by
  have missing : Whole missingValue.toList := by decide
  rcases v with _ | s | n <;> simp [valueWords, missing]

theorem whole_of_mem_numberWords (h : s ∈ numberWords n) : Whole s.toList := by
  cases n with
  | none =>
    obtain rfl := List.mem_singleton.mp h
    decide
  | some n => cases h

theorem whole_intercalate_iff :
    Whole ("\n".intercalate ls).toList ↔ ∀ l ∈ ls, Whole l.toList := by
  induction ls with
  | nil => simp
  | cons l ls ih =>
    cases ls with
    | nil => simp
    | cons k ls =>
      rw [String.intercalate_cons_of_ne_nil (List.cons_ne_nil k ls), List.forall_mem_cons, ← ih]
      simp

/-- The text of a sketch is whole if its lines are. -/
theorem whole_sketch_iff :
    Whole ("\n".intercalate ls ++ "\n").toList ↔ ∀ l ∈ ls, Whole l.toList := by
  rw [String.toList_append, whole_append_iff, whole_intercalate_iff]
  exact and_iff_left (by decide)

/-! ## Instructions and statements -/

theorem Ordinary.not_isHalf {c : Char} (h : Ordinary c) : Text.isHalf c = false :=
  isHalf_of_ascii (Nat.lt_succ_of_lt h.2.1)

theorem whole_mode (m : PinMode) : Whole m.text.toList := by cases m <;> decide

/-- The texts in the sentence of the instruction are whole. -/
def Instruction.IsWhole : Instruction → Prop
  | pinMode part pin _ => Whole part.toList ∧ Whole pin.shown.toList
  | setDigitalPin _ v | servoWrite _ v | lcdPrint v => WholeValue v
  | conditional c => Whole (c.getD missingValue).toList
  | _ => True

theorem Instruction.whole_words_iff (i : Instruction) :
    (∀ w ∈ i.words, Whole w.toList) ↔ i.IsWhole := by
  cases i with
  | program | setup | loop | ultrasonicRead | digitalRead => simp [words, IsWhole]
  | pinMode part pin mode => simp [words, IsWhole, whole_mode]
  | setDigitalPin p v | servoWrite p v | lcdPrint v => exact whole_valueWords_iff
  | conditional c => exact List.forall_mem_singleton
  | delay n | repetition n => exact iff_of_true (fun w => whole_of_mem_numberWords) trivial

/-- The texts of the statement are whole. -/
def Sketch.Statement.IsWhole : Statement → Prop
  | servoWrite _ v | printLine v => WholeValue v
  | conditionNote c => Whole (c.getD missingValue).toList
  | _ => True

theorem Sketch.Statement.whole_words_iff (st : Statement) :
    (∀ w ∈ st.words, Whole w.toList) ↔ st.IsWhole := by
  cases st with
  | servoWrite p v | printLine v => exact whole_valueWords_iff
  | conditionNote c => exact List.forall_mem_singleton
  | delay n | openLoop n => exact iff_of_true (fun w => whole_of_mem_numberWords) trivial
  | digitalWrite | echoNote | readEcho | readSensor | closeLoop => simp [words, IsWhole]

/-- The numbers that stand in a statement. -/
def Sketch.Statement.numbers : Statement → List Int
  | digitalWrite pin _ | echoNote pin | readEcho pin | readSensor pin => pin.toList
  | delay duration => duration.toList
  | servoWrite pin angle => pin.toList ++ angle.toList.flatMap ActionValue.numbers
  | printLine text => text.toList.flatMap ActionValue.numbers
  | openLoop count => count.toList
  | conditionNote _ | closeLoop => []

/-- A statement can be written exactly if its numbers can. -/
theorem Sketch.Statement.succeeds_text (st : Statement) :
    Succeeds st.text (∀ n ∈ st.numbers, Printable n) fun _ => True := by
  cases st with
  | servoWrite pin angle =>
    exact ((succeeds_pinText pin).bind fun _ _ =>
      (succeeds_valueText angle).bind_pure fun _ _ => trivial).congr List.forall_mem_append.symm
  | digitalWrite pin high | echoNote pin | readEcho pin | readSensor pin =>
    exact (succeeds_pinText pin).bind_pure fun _ _ => trivial
  | delay number | openLoop number =>
    exact (succeeds_numberText number).bind_pure fun _ _ => trivial
  | printLine text => exact (succeeds_valueText text).bind_pure fun _ _ => trivial
  | conditionNote _ | closeLoop => exact (Succeeds.pure trivial).congr (by simp [numbers])

/-! ## Forests -/

section

variable {I : Instruction → Prop} {S : Statement → Prop}

/-- Blinks that are lengthened differ in durations alone. -/
theorem forall_lengthened_iff (hd : ∀ d ∈ [none, some 0, some 1000], I (.delay d)) :
    (∀ i ∈ Program.instructions a.lengthened, I i) ↔ ∀ i ∈ Program.instructions a, I i := by
  by_cases h : a.Instant
  · have hb : Action.Blinks { a with duration := some 1000 } := h.1
    have short : I (.delay a.duration) := by
      rcases h.duration with hn | hn <;> simp [hn, hd]
    rw [Action.lengthened_of_instant h, Effect.instructions_of_blinks hb,
      Effect.instructions_of_blinks h.1]
    simp [short, hd]
  · rw [Action.lengthened_of_not_instant h]

/-- What holds for an instruction exactly if for the statements that carry it out does so for those of
a whole forest. -/
theorem forall_lines_iff_forall_placed (hp : ∀ i, Plain i → (I i ↔ ∀ st ∈ carrying i, S st))
    (hd : ∀ d ∈ [none, some 0, some 1000], I (.delay d))
    (ho : ∀ n, I (.repetition n) ↔ S (.openLoop n)) (hc : S .closeLoop)
    (ha : Leaves Action.Faithful as) :
    (∀ l ∈ Program.expandAll level as, I l.instruction) ↔
      ∀ q ∈ Sketch.placeAll level as, S q.statement := by
  induction ha generalizing level with
  | nil => simp [Program.expandAll, Sketch.placeAll]
  | @once a as hk ha _ ih =>
    -- The statements carry out the action with the duration that a sketch gives to a short blink.
    have carried : (∀ i ∈ Program.instructions a, I i) ↔ ∀ st ∈ Sketch.statements a, S st := by
      rw [← forall_lengthened_iff hd, ha.statements_eq, List.forall_mem_flatMap]
      exact forall₂_congr fun i hi => hp i (ha.plain i hi)
    rw [expandAll_once hk, placeAll_once hk, List.forall_mem_append, List.forall_mem_append,
      List.forall_mem_map, List.forall_mem_map, carried, ih]
  | loop hk _ _ ihi ih =>
    rw [expandAll_loop hk, placeAll_loop hk, List.forall_mem_cons, List.forall_mem_cons,
      List.forall_mem_append, List.forall_mem_append, List.forall_mem_cons, ho, ihi, ih]
    exact and_congr_right fun _ => and_congr_right fun _ => (and_iff_right hc).symm

end

/-- The instructions of a forest can be written exactly if its statements can. -/
theorem printable_lines_iff (ha : Leaves Action.Faithful as) :
    (∀ l ∈ Program.expandAll level as, ∀ n ∈ l.instruction.numbers, Printable n) ↔
      ∀ q ∈ Sketch.placeAll level as, ∀ n ∈ q.statement.numbers, Printable n := by
  have second : Printable 1000 := printable_of_lt (n := 1000) (m := 4) (by decide) (by decide)
  refine forall_lines_iff_forall_placed (I := fun i => ∀ n ∈ i.numbers, Printable n)
    (S := fun st => ∀ n ∈ st.numbers, Printable n) (fun i hi => ?_) ?_ (fun n => Iff.rfl)
    (by simp [Statement.numbers]) ha
  · cases i with
    | setDigitalPin p v =>
      rcases hi with rfl | rfl <;>
        simp [carrying, Instruction.numbers, Statement.numbers, ActionValue.numbers]
    | program | setup | loop | pinMode | repetition => cases hi
    | _ => simp [carrying, Instruction.numbers, Statement.numbers]
  · simp [Instruction.numbers, printable_zero, second]

/-- The steps of a program can be written exactly if the loop of its sketch can. -/
theorem exists_steps_iff_exists_body {cs : List Component}
    (hr : ∀ c ∈ cs, Validation.Readable c) (ha : Leaves Action.Faithful as) :
    (∃ steps, Program.steps as cs = .ok steps) ↔
      ∃ ls, (Sketch.placeAll 1 as).mapM Placed.text = .ok ls := by
  have each (q : Placed) : Succeeds q.text
      (∀ n ∈ q.statement.numbers, Printable n) fun _ => True :=
    q.statement.succeeds_text.bind_pure fun _ _ => trivial
  have body : Succeeds ((Sketch.placeAll 1 as).mapM Placed.text)
      (∀ q ∈ Sketch.placeAll 1 as, ∀ n ∈ q.statement.numbers, Printable n)
      fun _ => True := (Succeeds.mapM fun q _ => each q).mono fun _ _ => trivial
  rw [body.exists_iff, ← printable_lines_iff ha]
  exact (Program.succeeds_steps hr).exists_iff

/-- If pins are named after texts, the loop of a sketch decides whether the sketch can be written. -/
theorem exists_render_iff_exists_body {cs : List Component} (board : Board) (day : Date)
    (hr : ∀ c ∈ cs, Validation.Readable c) (hn : ∀ c ∈ cs, PinSetup.Named c) :
    (∃ code, Sketch.render as cs board day = .ok code) ↔
      ∃ ls, (Sketch.placeAll 1 as).mapM Placed.text = .ok ls := by
  constructor
  · rintro ⟨code, hc⟩
    obtain ⟨ls, hls, -⟩ := map_eq_ok_iff.mp hc
    obtain ⟨-, -, -, body, -, -, hb, -⟩ := Effect.parts_of_lines hls
    exact ⟨body, hb⟩
  · rintro ⟨ls, hb⟩
    obtain ⟨lines, hls⟩ := PinSetup.exists_lines day hr hn hb
    exact ⟨_, map_eq_ok_iff.mpr ⟨lines, hls, rfl⟩⟩

/-- The instructions of a forest are whole exactly if its statements are. -/
theorem whole_lines_iff (ha : Leaves Action.Faithful as) :
    (∀ l ∈ Program.expandAll level as, l.instruction.IsWhole) ↔
      ∀ q ∈ Sketch.placeAll level as, q.statement.IsWhole := by
  refine forall_lines_iff_forall_placed (I := Instruction.IsWhole) (S := Statement.IsWhole)
    (fun i hi => ?_) (fun _ _ => trivial) (fun n => Iff.rfl) trivial ha
  cases i with
  | setDigitalPin p v =>
    rcases hi with rfl | rfl <;> simp [carrying, Instruction.IsWhole, Statement.IsWhole]
  | program | setup | loop | pinMode | repetition => cases hi
  | _ => simp [carrying, Instruction.IsWhole, Statement.IsWhole]

/-! ## Records of actions -/

namespace Text

theorem lt_of_covers {ranges : List (Nat × Nat)} {b n : Nat} (hb : ∀ r ∈ ranges, r.2 < b)
    (h : covers ranges n = true) : n < b := by
  induction ranges with
  | nil => cases h
  | cons r ranges ih =>
    obtain ⟨hr, hrs⟩ := List.forall_mem_cons.mp hb
    rw [covers_cons, Bool.and_eq_true, Bool.or_eq_true, decide_eq_true_eq, decide_eq_true_eq] at h
    rcases h.2 with h | h
    · omega
    · exact ih hrs h

theorem le_toNat_of_isHalf {c : Char} (h : isHalf c = true) : 0x10D800 ≤ c.toNat := by
  have valid : c.toNat < 0xD800 ∨ 0xDFFF < c.toNat := c.valid.imp id And.left
  unfold isHalf codeOf isSurrogate standInOffset at h
  split at h
  · next hc =>
    simp only [Bool.and_eq_true, decide_eq_true_eq] at h hc
    omega
  · simp only [Bool.and_eq_true, decide_eq_true_eq] at h
    omega

/-- No part of a word is a half of a character. -/
theorem isHalf_of_isWord {c : Char} (h : isWord c = true) : isHalf c = false := by
  cases hc : isHalf c with
  | false => rfl
  | true =>
    -- Halves have stand-ins beyond all ranges of letters and digits.
    have large := le_toNat_of_isHalf hc
    have table : ∀ r ∈ alphanumericRanges, r.2 < 0x10D800 := by decide +kernel
    rw [isWord, isAlphanumeric, if_neg (by omega), Bool.or_eq_true, beq_iff_eq] at h
    rcases h with rfl | h
    · exact absurd hc (by decide)
    · exact absurd (lt_of_covers table h) (by omega)

end Text

namespace Prompt

variable {u w : List Char} {us : List (List Char)}

theorem WordOf.whole (h : WordOf u w) : Whole w := fun c hc => Text.isHalf_of_isWord (h.isWord c hc)

theorem forall_field_iff {α : Type} {name : String} {f : α → Document} {o : Option α}
    (hn : Whole name.toList) : (∀ e ∈ Action.field name f o, Whole e.1.toList ∧ Service.Sendable e.2) ↔
      ∀ x ∈ o, Service.Sendable (f x) := by
  cases o <;> simp [Action.field, hn]

/-- The record of an action can be sent if its texts are whole. -/
theorem sendable_toRecord_iff (hk : a.kind ≠ .repetition) :
    Service.Sendable a.toRecord ↔ (∀ s ∈ a.component, Whole s.toList) ∧ WholeValue a.value ∧
      ∀ s ∈ a.condition, Whole s.toList := by
  obtain ⟨k, c, p, v, d, q, n, actions⟩ := a
  have id : Whole k.id.toList := by cases k <;> decide
  have shown : (∀ x ∈ v, Service.Sendable (ActionValue.toDocument x)) ↔ WholeValue v := by
    rcases v with _ | s | n <;> simp [ActionValue.toDocument]
  have names : ∀ s ∈ ["type", "component", "pin", "value", "duration", "condition", "count"],
      Whole s.toList := by
    decide
  simp only [List.forall_mem_cons] at names
  obtain ⟨type, component, pin, value, duration, condition, count, -⟩ := names
  simp only [Action.toRecord, if_neg hk, List.append_nil, Service.sendable_object, Action.fields,
    List.forall_mem_append, List.forall_mem_singleton, forall_field_iff, Service.sendable_text,
    Service.sendable_int, type, component, pin, value, duration, condition, count, id, shown,
    true_and, implies_true, and_true, and_assoc]

/-- The record of an action can be sent if its instructions are whole. -/
theorem Shape.sendable_iff (h : Shape u a) :
    Service.Sendable a.toRecord ↔ ∀ i ∈ Program.instructions a, i.IsWhole := by
  rw [sendable_toRecord_iff h.once]
  cases h with
  | @turn w on pin hw =>
    have level : Whole (if on then "HIGH" else "LOW").toList := by cases on <;> decide
    have plain : (if on then "HIGH" else "LOW") ≠ "blink" := by cases on <;> decide
    by_cases hs : String.ofList w = "servo" <;>
      simp [Program.instructions, Program.setting, Instruction.IsWhole, hs, hw.ne_motor, hw.whole,
        level, plain]
  | motor pin d =>
    by_cases hd : 0 < d <;>
      simp [Program.instructions, Program.setting, Instruction.IsWhole, hd]
  | @sensor w pin hw =>
    by_cases hs : String.ofList w = "ultrasonic" <;>
      simp [Program.instructions, Instruction.IsWhole, hs, hw.whole]
  | blink | servo => simp [Program.instructions, Program.setting, Instruction.IsWhole]
  | delay | print | conditional => simp [Program.instructions, Instruction.IsWhole]

/-- The records of the actions of a prompt can be sent if their instructions are whole. -/
theorem sendable_toRecords_iff (h : ∀ a ∈ as, Spoken us a) :
    (∀ d ∈ Action.toRecords as, Service.Sendable d) ↔
      ∀ l ∈ Program.expandAll level as, l.instruction.IsWhole := by
  induction as with
  | nil => simp [Action.toRecords, Program.expandAll]
  | cons a as ih =>
    obtain ⟨⟨s, -, ha⟩, has⟩ := List.forall_mem_cons.mp h
    rw [Action.toRecords, List.forall_mem_cons, ih has]
    rcases ha with ha | ⟨b, k, -, hb, rfl⟩
    · rw [expandAll_once ha.once, List.forall_mem_append, List.forall_mem_map, ha.sendable_iff]
    · have inner : Action.toRecord (Action.repeating (k : Nat) b) =
          .object [("type", .text "repeat"), ("count", .int (k : Nat)),
            ("actions", .list [b.toRecord])] := rfl
      have sent : Service.Sendable (Action.repeating (k : Nat) b).toRecord ↔
          Service.Sendable b.toRecord := by
        rw [inner]
        simp
      rw [sent, hb.sendable_iff, expandAll_loop rfl, List.forall_mem_cons, List.forall_mem_append]
      simp [Action.repeating, expandAll_once hb.once, Program.expandAll, Instruction.IsWhole]

end Prompt

/-! ## Components -/

/-- The name of the part, if it has pins, and its pins are whole. -/
def Component.IsWhole (c : Component) : Prop :=
  ∀ spec ∈ c.spec?, ∀ p ∈ c.pinList, Whole spec.name.toList ∧ Whole p.shown.toList

/-- The lines that define the pins of the component are whole. -/
def Component.IsDefinedWhole (c : Component) : Prop :=
  ∀ ts, Sketch.definitions c = .ok ts → ∀ t ∈ ts, Whole t.toList

/-- A label is in the definitions of pins and nowhere else. -/
example : ∃ c : Component, c.IsWhole ∧ ¬ c.IsDefinedWhole := by
  let half := String.ofList [Text.charOfCode 0xD800]
  let c : Component := ⟨"1", .known "led", "4", some (.text half)⟩
  have halves : (Sketch.definitions c).toOption.any
      (fun ts => !decide (∀ t ∈ ts, Whole t.toList)) = true := by
    decide +kernel
  obtain ⟨ts, hd, hn⟩ := exists_ok_of_any halves
  refine ⟨c, ?_, fun h => ?_⟩
  · rintro spec ⟨⟩
    decide
  · obtain ⟨t, ht, broken⟩ := by simpa using hn
    exact broken (h ts hd t ht)

section

variable {c : Component} {cs : List Component} {ts : List String} {lines : List Line}

theorem whole_pinModes_iff (h : Program.pinModes c = .ok lines) :
    (∀ l ∈ lines, l.instruction.IsWhole) ↔ c.IsWhole := by
  unfold Program.pinModes at h
  unfold Component.IsWhole
  cases hs : c.spec? with
  | none =>
    rw [hs] at h
    obtain rfl := Except.ok.inj h
    simp
  | some spec =>
    rw [hs] at h
    obtain ⟨pins, hp, rfl⟩ := map_eq_ok_iff.mp h
    simp [Component.pinList_of_ok hp, Instruction.IsWhole]

theorem whole_modeLines_iff (h : Sketch.modeLines c = .ok ts) :
    (∀ t ∈ ts, Whole t.toList) ↔ c.IsWhole := by
  unfold Sketch.modeLines at h
  unfold Component.IsWhole
  cases hs : c.spec? with
  | none =>
    rw [hs] at h
    obtain rfl := Except.ok.inj h
    simp
  | some spec =>
    rw [hs] at h
    obtain ⟨pins, hp, rfl⟩ := map_eq_ok_iff.mp h
    have words : ∀ s ∈ [Sketch.indent, "pinMode(", ", ", "); // "], Whole s.toList := by
      decide
    simp only [List.forall_mem_cons] at words
    obtain ⟨space, lead, between, note, -⟩ := words
    simp only [List.forall_mem_map, Component.pinList_of_ok hp, ToString.toString,
      String.toList_append, whole_append_iff, space, lead, between, note, whole_mode, true_and,
      and_true]
    simp [and_comm]

end

/-! ## Programs and sketches -/

section

variable {cs : List Component} {steps : List Step} {board : Board} {day : Date}

theorem whole_step_iff {l : Line} {s : Step} (h : l.step = .ok s) :
    Whole s.text.toList ↔ l.instruction.IsWhole :=
  (throughout_step_iff (fun _ => Ordinary.not_isHalf) h).trans l.instruction.whole_words_iff

theorem sendable_step_iff {l : Line} {s : Step} (h : l.step = .ok s) :
    Service.Sendable s.toRecord ↔ l.instruction.IsWhole := by
  rw [← whole_step_iff h]
  obtain ⟨t, -, hs⟩ := bind_eq_ok_iff.mp h
  obtain rfl := pure_eq_ok_iff.mp hs
  have kind : Whole l.instruction.stepKind.id.toList := by
    cases l.instruction.stepKind <;> decide
  have block : Whole l.instruction.block.toList := by
    cases l.instruction <;> simp [Instruction.block]
  simp [Step.toRecord, kind, block]

/-- The steps of a program can be sent if its parts and its instructions are whole. -/
theorem sendable_steps_iff (h : Program.steps as cs = .ok steps) :
    (∀ s ∈ steps, Service.Sendable s.toRecord) ↔
      (∀ c ∈ cs, c.IsWhole) ∧ ∀ l ∈ Program.expandAll 1 as, l.instruction.IsWhole := by
  obtain ⟨start, hl, hs⟩ := Effect.steps_eq_ok h
  obtain ⟨modes, hm, hp⟩ := bind_eq_ok_iff.mp hl
  obtain rfl := pure_eq_ok_iff.mp hp
  rw [forall_mem_iff_of_forall₂ (mapM_eq_ok_iff.mp hs) fun l _ s => sendable_step_iff,
    ← forall_mem_flatten_iff (mapM_eq_ok_iff.mp hm) fun c _ ls => whole_pinModes_iff,
    List.forall_mem_append, List.forall_mem_append, List.forall_mem_cons]
  simp [Instruction.IsWhole]

theorem whole_padded (width n : Nat) : Whole (padded width n).toList := by
  rw [padded, String.toList_ofList]
  exact whole_append_iff.mpr ⟨whole_replicate _ (by decide), whole_toDigits n⟩

theorem whole_of_mem_header {n : Nat} {pins : Pin.Counts}
    (h : t ∈ Sketch.header board day n pins) : Whole t.toList := by
  have date : Whole day.text.toList := by
    have year : Whole (padded 4 day.year ++ "-").toList :=
      (whole_after_iff (whole_padded 4 _)).mpr (by decide)
    exact (whole_after_iff (whole_around year (whole_padded 2 _) (by decide))).mpr
      (whole_padded 2 _)
  have name : Whole board.profile.name.toList := by cases board <;> decide
  simp only [Sketch.header, List.mem_cons, List.not_mem_nil, or_false] at h
  rcases h with rfl | rfl | rfl | rfl | rfl | rfl | rfl | rfl | rfl | rfl
  · decide
  · decide
  · exact (whole_after_iff (by decide)).mpr name
  · exact (whole_after_iff (by decide)).mpr date
  · exact (whole_after_iff (by decide)).mpr (whole_toString_nat _)
  · exact (whole_after_iff (by decide)).mpr (whole_toString_nat _)
  · exact (whole_after_iff (by decide)).mpr (whole_toString_nat _)
  all_goals decide

theorem whole_placed_iff {q : Placed} (h : q.text = .ok t) :
    Whole t.toList ↔ q.statement.IsWhole :=
  (throughout_placed_iff (fun _ => Ordinary.not_isHalf) h).trans q.statement.whole_words_iff

/-- The lines of a sketch can be sent if the definitions of pins, the parts and the statements are
whole. -/
theorem whole_sketchLines_iff (h : Sketch.lines as cs board day = .ok ls) :
    (∀ l ∈ ls, Whole l.toList) ↔ (∀ c ∈ cs, c.IsDefinedWhole) ∧ (∀ c ∈ cs, c.IsWhole) ∧
      ∀ q ∈ Sketch.placeAll 1 as, q.statement.IsWhole := by
  obtain ⟨names, modes, body, hn, hm, hb, he⟩ := forall_mem_lines_iff_of_fixed
    (Q := fun l => Whole l.toList) (fun _ _ _ => whole_of_mem_header) (by decide) h
  have named : (∀ t ∈ names.flatten, Whole t.toList) ↔ ∀ c ∈ cs, c.IsDefinedWhole :=
    forall_mem_flatten_iff hn fun c _ ts hts => by simp [Component.IsDefinedWhole, hts]
  have moded : (∀ t ∈ modes.flatten, Whole t.toList) ↔ ∀ c ∈ cs, c.IsWhole :=
    forall_mem_flatten_iff hm fun c _ ts => whole_modeLines_iff
  have written : (∀ t ∈ body, Whole t.toList) ↔
      ∀ q ∈ Sketch.placeAll 1 as, q.statement.IsWhole :=
    forall_mem_iff_of_forall₂ (mapM_eq_ok_iff.mp hb) fun q _ t => whole_placed_iff
  rw [he, named, moded, written]

end

end BlockSketch
