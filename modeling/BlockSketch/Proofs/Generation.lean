import BlockSketch.Project.Basic
import BlockSketch.Proofs.Numerals
import BlockSketch.Proofs.Reports
import BlockSketch.Proofs.Written

/-! # Outcomes of generation

Generation refuses a blank prompt and a report with errors. It fails for no other reason than a
number that is too long: one of a pin that is declared, one of a sentence, or a duration.
-/

namespace BlockSketch

open Text Numeral

/-! ## Pins -/

namespace Pin

/-- The digits that a pin is read with. A text that begins with `A` is a name. -/
def leadingDigits (token : List Char) : List Char :=
  if token.head? = some 'A' then [] else (splitSign token).2.takeWhile isDigit

/-- The digits of every pin are few enough to be read. -/
def Legible (text : String) : Prop :=
  ∀ part ∈ pieces (· == ',') text.toList, Short (leadingDigits (trim (afterLabel part)))

theorem succeeds_read (token : List Char) :
    Succeeds (read token) (Short (leadingDigits token)) fun _ => True := by
  have h0 : Short [] := Nat.zero_le _
  unfold read leadingDigits
  split
  · exact (Succeeds.pure trivial).congr (iff_of_true trivial h0)
  · dsimp only
    split
    · next h => exact (Succeeds.pure trivial).congr (iff_of_true trivial (by rwa [h]))
    · exact (succeeds_ofDigits _).map fun _ _ => trivial

theorem afterLabel_of_not_mem {s : List Char} (h : ':' ∉ s) : afterLabel s = s :=
  if_neg fun hc => h (List.contains_iff_mem.mp hc)

theorem legible_of_blank {text : String} (h : text.toList.all isBlank = true) : Legible text := by
  have hb : ∀ c ∈ text.toList, isBlank c = true := List.all_eq_true.mp h
  have blank {d : Char} (hd : isBlank d = false) : d ∉ text.toList := by
    intro hm
    simp [hb d hm] at hd
  rw [Legible, pieces_of_not_mem (blank (by decide)), List.forall_mem_singleton,
    afterLabel_of_not_mem (blank (by decide)), Prompt.trim_of_forall hb]
  exact Nat.zero_le _

/-- A specification of pins can be read exactly if no pin has too many digits. -/
theorem succeeds_readAll (text : String) :
    Succeeds (readAll text) (Legible text) fun _ => True := by
  unfold readAll
  dsimp only
  split
  · next h => exact (Succeeds.pure trivial).congr (iff_of_true trivial (legible_of_blank h))
  · exact (Succeeds.mapM fun part _ => succeeds_read _).mono fun _ _ => trivial

section

variable {ds : List Char} (hd : ∀ c ∈ ds, c.isDigit = true)
include hd

theorem not_mem_digits {d : Char} (h : d.isDigit = false) : d ∉ ds := by
  intro hm
  simp [hd d hm] at h

theorem takeWhile_digits : ds.takeWhile Text.isDigit = ds :=
  List.takeWhile_eq_self_iff.mpr fun c hc => isDigit_of_ascii (hd c hc)

theorem read_digits (hn : ds ≠ []) : read ds = (ofDigits ds).map fun n => .number n := by
  have hA : ds.head? ≠ some 'A' := fun h => not_mem_digits hd (by decide) (List.mem_of_mem_head? h)
  have hs : splitSign ds = (false, ds) := by
    unfold splitSign
    split
    · exact absurd List.mem_cons_self (not_mem_digits hd (by decide))
    · exact absurd List.mem_cons_self (not_mem_digits hd (by decide))
    · rfl
  obtain ⟨c, cs, rfl⟩ := List.exists_cons_of_ne_nil hn
  rw [read, if_neg hA, hs]
  simp only [takeWhile_digits hd]
  rfl

/-- A run of digits is read as one pin. -/
theorem readAll_digits (hn : ds ≠ []) :
    readAll (String.ofList ds) = (ofDigits ds).map fun n => [.number n] := by
  have solid : ∀ c ∈ ds, isBlank c = false :=
    fun c hc => not_isBlank_of_isPlain (isPlain_of_isDigit (hd c hc))
  have hb : ds.all isBlank = false := by
    obtain ⟨c, hc⟩ := List.exists_mem_of_ne_nil ds hn
    exact List.all_eq_false.mpr ⟨c, hc, by simp [solid c hc]⟩
  have ht : trim ds = ds := by
    simpa using Prompt.trim_append (l := []) (p := []) (by simp) (by simp) hn
      (fun c hc => solid c (List.mem_of_mem_head? hc))
      fun c hc => solid c (List.mem_of_mem_getLast? hc)
  have comma : ',' ∉ ds := not_mem_digits hd (by decide)
  have colon : ':' ∉ ds := not_mem_digits hd (by decide)
  rw [readAll, String.toList_ofList]
  simp only [hb, pieces_of_not_mem comma, List.mapM_cons, List.mapM_nil,
    afterLabel_of_not_mem colon, ht, read_digits hd hn]
  cases ofDigits ds <;> rfl

end

end Pin

namespace Validation

variable {c : Component} {cs : List Component}

theorem readable_iff : Readable c ↔ Pin.Legible c.pins := by
  rw [← (Pin.succeeds_readAll c.pins).exists_iff]
  exact ⟨fun h => ⟨_, h⟩, fun ⟨_, h⟩ => readable_of_ok h⟩

theorem report_cons_of_unreadable {b : Board} {spec : Spec} {f : NumeralFault}
    (hs : c.spec? = some spec) (h : Pin.readAll c.pins = .error f) :
    report b (c :: cs) = .error f := by
  rw [report, issues, checkFrom, hs]
  simp only [h]
  rfl

theorem succeeds_report (b : Board) (cs : List Component) :
    Succeeds (report b cs) (∀ c ∈ cs, Pin.Legible c.pins) fun _ => True where
  exists_iff := by simp only [exists_report_iff, readable_iff]
  result _ _ := trivial

end Validation

/-! ## Steps -/

namespace Program

open Prompt Validation

variable {cs : List Component} {as : List Action}

theorem succeeds_pinModes {c : Component} (h : Readable c) :
    Succeeds (pinModes c) True LinesWritable := by
  unfold pinModes
  split
  · exact .pure (List.forall_mem_nil _)
  · next spec _ =>
    rw [Readable] at h
    rw [h]
    refine .pure (P := LinesWritable) ?_
    rw [LinesWritable, List.forall_mem_map]
    exact fun p _ => List.forall_mem_nil _

theorem succeeds_setup (h : ∀ c ∈ cs, Readable c) : Succeeds (setup cs) True LinesWritable := by
  have modes := Succeeds.mapM fun c hc => succeeds_pinModes (h c hc)
  refine (modes.bind_pure fun ls hls => ?_).congr (by simp)
  rw [LinesWritable, List.forall_mem_append]
  refine ⟨by simp [Instruction.numbers], fun l hl => ?_⟩
  obtain ⟨m, hm, hl⟩ := List.mem_flatten.mp hl
  obtain ⟨c, -, hc⟩ := exists_of_forall₂ hls.flip hm
  exact hc l hl

/-- The steps of a program can be written exactly if the lines of its actions can. -/
theorem succeeds_steps (h : ∀ c ∈ cs, Readable c) :
    Succeeds (steps as cs) (LinesWritable (expandAll 1 as)) fun _ => True := by
  have lines : Succeeds (build as cs) True fun ls =>
      LinesWritable ls ↔ LinesWritable (expandAll 1 as) := by
    refine (succeeds_setup h).bind_pure fun ls hls => ?_
    rw [LinesWritable, List.forall_mem_append, List.forall_mem_cons]
    exact (and_iff_right hls).trans (and_iff_right (List.forall_mem_nil _))
  refine (lines.bind fun ls hls => ?_).congr (and_iff_right trivial)
  have written (l : Line) :
      Succeeds l.step (∀ n ∈ l.instruction.numbers, Printable n) fun _ => True :=
    (succeeds_text l.instruction).bind_pure fun _ _ => trivial
  exact ((Succeeds.mapM fun l _ => written l).congr hls).mono fun _ _ => trivial

end Program

/-! ## Generation -/

namespace Project

variable {p : Project}

/-- The ways that generation goes. -/
inductive Course (p : Project) : Except Failure Generated → Prop where
  | blank : isBlankText p.prompt = true → Course p (.error .emptyPrompt)
  | pins {f : NumeralFault} : isBlankText p.prompt = false →
      (¬ ∀ c ∈ p.components, Pin.Legible c.pins) → Course p (.error (.numeral f))
  | blocked {r : Report} : isBlankText p.prompt = false → p.report = .ok r →
      r.allowsGeneration = false → Course p (.error (.blocked r))
  | prompt {r : Report} {f : NumeralFault} : isBlankText p.prompt = false → p.report = .ok r →
      r.allowsGeneration = true → ¬ Prompt.Manageable p.prompt → Course p (.error (.numeral f))
  | done {g : Generated} : isBlankText p.prompt = false → p.report = .ok g.report →
      g.report.allowsGeneration = true → Prompt.Manageable p.prompt → Course p (.ok g)

/-- A lifted computation that fails fails with the fault of a numeral. -/
theorem lift_cases {α : Type} {L : Prop} {P : α → Prop} {x : Except NumeralFault α}
    (h : Succeeds x L P) : (∃ a, (liftM x : Except Failure α) = .ok a ∧ L ∧ P a) ∨
      ∃ f, (liftM x : Except Failure α) = .error (.numeral f) ∧ ¬ L := by
  cases x with
  | ok a => exact .inl ⟨a, rfl, h.exists_iff.mp ⟨a, rfl⟩, h.result a rfl⟩
  | error f => exact .inr ⟨f, rfl, fun hl => by simpa using h.exists_iff.mpr hl⟩

section

variable {r : Report} {e : Failure} (hb : isBlankText p.prompt = false)
include hb

theorem generate_of_report_error (hr : p.report = .error e) : generate p = .error e := by
  rw [generate, hb, hr]
  rfl

theorem generate_of_refused (hr : p.report = .ok r) (ha : r.allowsGeneration = false) :
    generate p = .error (.blocked r) := by
  have hg : gate r = .error (.blocked r) := by rw [gate, ha]; rfl
  rw [generate, hb, hr]
  simp only [bind, Except.bind, hg]
  rfl

theorem generate_of_allowed (hr : p.report = .ok r) (ha : r.allowsGeneration = true) :
    generate p = do
      let actions ← p.actions
      let steps ← liftM (Program.steps actions p.components)
      return ⟨actions, steps, r⟩ := by
  have hg : gate r = .ok () := by rw [gate, ha]; rfl
  rw [generate, hb, hr]
  simp only [bind, Except.bind, hg]
  rfl

end

/-- With a report that allows it, generation depends on the prompt alone. -/
theorem course_of_allowed {r : Report} (hb : isBlankText p.prompt = false) (hr : p.report = .ok r)
    (ha : r.allowsGeneration = true) (hp : ∀ c ∈ p.components, Pin.Legible c.pins) :
    Course p (generate p) := by
  rw [generate_of_allowed hb hr ha]
  rcases lift_cases (Prompt.succeeds_actions p.prompt) with ⟨as, hs, hl, hw⟩ | ⟨f, hf, hl⟩
  · have hs : p.actions = .ok as := hs
    rw [hs]
    have readable : ∀ c ∈ p.components, Validation.Readable c :=
      fun c hc => Validation.readable_iff.mpr (hp c hc)
    have steps : Succeeds (Program.steps as p.components)
        (Prompt.LinesWritable (Program.expandAll 1 as)) fun _ => True :=
      Program.succeeds_steps readable
    rcases lift_cases steps with ⟨ss, ht, hn, -⟩ | ⟨f, hf, hn⟩
    · simp only [bind, Except.bind, ht]
      exact .done hb hr ha fun s hs x hx => ⟨hl s hs x hx, hw.mp hn s hs x hx⟩
    · simp only [bind, Except.bind, hf]
      exact .prompt hb hr ha fun h => hn (hw.mpr fun s hs x hx => (h s hs x hx).2)
  · have hs : p.actions = .error (.numeral f) := hf
    rw [hs]
    exact .prompt hb hr ha fun h => hl fun s hs x hx => (h s hs x hx).1

theorem course_generate (p : Project) : Course p (generate p) := by
  cases hb : isBlankText p.prompt with
  | true =>
    have hg : generate p = .error .emptyPrompt := by rw [generate, hb]; rfl
    rw [hg]
    exact .blank hb
  | false =>
    rcases lift_cases (Validation.succeeds_report p.board p.components) with
      ⟨r, hr, hp, -⟩ | ⟨f, hf, hp⟩
    · cases ha : r.allowsGeneration with
      | true => exact course_of_allowed hb hr ha hp
      | false =>
        rw [generate_of_refused hb hr ha]
        exact .blocked hb hr ha
    · rw [generate_of_report_error hb hf]
      exact .pins hb hp

theorem legible_of_report {r : Report} (h : p.report = .ok r) :
    ∀ c ∈ p.components, Pin.Legible c.pins :=
  (Validation.succeeds_report p.board p.components).exists_iff.mp
    ⟨r, mapError_eq_ok_iff.mp h⟩

theorem generate_eq_emptyPrompt_iff :
    generate p = .error .emptyPrompt ↔ isBlankText p.prompt = true := by
  have course := course_generate p
  generalize generate p = x at course ⊢
  cases course with
  | blank hb => simp [hb]
  | pins hb => simp [hb]
  | blocked hb => simp [hb]
  | prompt hb => simp [hb]
  | done hb => simp [hb]

theorem generate_eq_blocked_iff {r : Report} : generate p = .error (.blocked r) ↔
    isBlankText p.prompt = false ∧ p.report = .ok r ∧ r.allowsGeneration = false := by
  have course := course_generate p
  generalize generate p = x at course ⊢
  cases course with
  | blank hb => simp [hb]
  | pins hb hp => simpa [hb] using fun hr => absurd (legible_of_report hr) hp
  | @blocked q hb hr ha =>
    simp only [hb, hr, Except.error.injEq, Failure.blocked.injEq, Except.ok.injEq, true_and]
    exact ⟨fun h => ⟨h, h ▸ ha⟩, And.left⟩
  | prompt hb hr ha =>
    simp only [hr, reduceCtorEq, Except.error.injEq, Except.ok.injEq, false_iff]
    rintro ⟨-, rfl, h⟩
    simp [ha] at h
  | done hb hr ha =>
    simp only [hr, reduceCtorEq, Except.ok.injEq, false_iff]
    rintro ⟨-, rfl, h⟩
    simp [ha] at h

/-- The outcomes that are no faults of a numeral. -/
theorem generate_answers_iff : ((∃ g, generate p = .ok g) ∨ generate p = .error .emptyPrompt ∨
      ∃ r, generate p = .error (.blocked r)) ↔
    isBlankText p.prompt = true ∨ ((∀ c ∈ p.components, Pin.Legible c.pins) ∧
      (Prompt.Manageable p.prompt ∨ ∃ r, p.report = .ok r ∧ r.allowsGeneration = false)) := by
  have course := course_generate p
  generalize generate p = x at course ⊢
  cases course with
  | blank hb => simp [hb]
  | pins hb hp => simp only [hb, hp]; simp
  | blocked hb hr ha =>
    exact iff_of_true (.inr (.inr ⟨_, rfl⟩)) (.inr ⟨legible_of_report hr, .inr ⟨_, hr, ha⟩⟩)
  | prompt hb hr ha hl => simp [hb, hr, ha, hl]
  | done hb hr ha hl =>
    exact iff_of_true (.inl ⟨_, rfl⟩) (.inr ⟨legible_of_report hr, .inl hl⟩)

/-- Generation refuses exactly the blank prompts and, of the others, those with an error in the
report. Whatever else fails is the fault of a numeral, and that happens exactly if a declared pin
has too many digits or, with a report that is not refused, a sentence has a number or a duration
that is too long. -/
theorem generate_outcomes (p : Project) :
    (generate p = .error .emptyPrompt ↔ isBlankText p.prompt = true) ∧
    (∀ r, generate p = .error (.blocked r) ↔ isBlankText p.prompt = false ∧ p.report = .ok r ∧
      ∃ i ∈ r.issues, i.severity = .error) ∧
    (∀ e, generate p = .error e →
      e = .emptyPrompt ∨ (∃ r, e = .blocked r) ∨ ∃ f, e = .numeral f) ∧
    (((∃ g, generate p = .ok g) ∨ generate p = .error .emptyPrompt ∨
        ∃ r, generate p = .error (.blocked r)) ↔
      isBlankText p.prompt = true ∨ ((∀ c ∈ p.components, Pin.Legible c.pins) ∧
        (Prompt.Manageable p.prompt ∨
          ∃ r, p.report = .ok r ∧ ∃ i ∈ r.issues, i.severity = .error))) := by
  simp only [← Report.allowsGeneration_eq_false_iff]
  refine ⟨generate_eq_emptyPrompt_iff, fun _ => generate_eq_blocked_iff, fun e he => ?_,
    generate_answers_iff⟩
  have course := course_generate p
  rw [he] at course
  cases course with
  | blank => exact .inl rfl
  | pins => exact .inr (.inr ⟨_, rfl⟩)
  | blocked => exact .inr (.inl ⟨_, rfl⟩)
  | prompt => exact .inr (.inr ⟨_, rfl⟩)

/-- One digit more than can be read makes the report, and with it the generation, fail. -/
theorem generate_long_pin :
    ∃ p, ofDocument (.object [("prompt", .text "blink led"), ("components", .list [.object [
        ("type", .text "led"), ("pins", .text (String.ofList (List.replicate 4301 '1')))]])]) .uno =
        .ok p ∧
      isBlankText p.prompt = false ∧ (∀ r, p.report ≠ .ok r) ∧
      generate p = .error (.numeral (.tooManyDigits 4301)) := by
  have hn : List.replicate 4301 '1' ≠ [] :=
    List.ne_nil_of_length_pos (by rw [List.length_replicate]; decide)
  have hd : ∀ c ∈ List.replicate 4301 '1', c.isDigit = true := by
    intro c hc
    rw [List.eq_of_mem_replicate hc]
    rfl
  have hl : ofDigits (List.replicate 4301 '1') = .error (.tooManyDigits 4301) := by
    rw [ofDigits, List.length_replicate]
    rfl
  have hpins : Pin.readAll (String.ofList (List.replicate 4301 '1')) =
      .error (.tooManyDigits 4301) := by
    rw [Pin.readAll_digits hd hn, hl]
    rfl
  let p : Project := ⟨"blink led", .uno,
    [⟨"1", .known "led", String.ofList (List.replicate 4301 '1'), none⟩]⟩
  have hb : isBlankText p.prompt = false := by decide
  have hr : p.report = .error (.numeral (.tooManyDigits 4301)) := by
    have hv : Validation.report p.board p.components = .error (.tooManyDigits 4301) :=
      Validation.report_cons_of_unreadable rfl hpins
    rw [report, hv]
    rfl
  exact ⟨p, rfl, hb, by simp [hr], generate_of_report_error hb hr⟩

end Project

end BlockSketch
