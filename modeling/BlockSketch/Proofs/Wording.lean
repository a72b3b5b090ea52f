import BlockSketch.Proofs.Characters
import BlockSketch.Proofs.Readback

/-! # Wording of instructions and statements

The fixed words of instructions and statements, their numbers and their pins are made of ordinary
characters. So what holds of all ordinary characters holds throughout a sentence or a source text exactly
if it holds throughout the texts that are put into it, with the word for what is missing.
-/

namespace BlockSketch

open Sketch (Statement)

variable {P : Char → Prop} {s lead tail t : String} {p n : Option Int} {v : Option ActionValue}

/-! ## Characters -/

/-- A character of ASCII that is printed, apart from the one that begins the word for what is missing. -/
def Ordinary (c : Char) : Prop := 32 ≤ c.toNat ∧ c.toNat < 127 ∧ c ≠ 'N'

instance : DecidablePred Ordinary := fun _ => inferInstanceAs (Decidable (_ ∧ _ ∧ _))

theorem IsSigned.ordinary {c : Char} (h : IsSigned c) : Ordinary c := by
  rcases h with rfl | h
  · decide
  · have hc : 48 ≤ c.toNat ∧ c.toNat ≤ 57 := Text.isDigit_iff.mp h
    refine ⟨by omega, by omega, ?_⟩
    rintro rfl
    exact absurd h (by decide)

/-- The predicate holds of every character of the text. -/
def Throughout (P : Char → Prop) (s : String) : Prop := ∀ c ∈ s.toList, P c

instance [DecidablePred P] : DecidablePred (Throughout P) := fun s =>
  inferInstanceAs (Decidable (∀ c ∈ s.toList, P c))

theorem Throughout.mono {Q : Char → Prop} (h : Throughout P s) (hi : ∀ c, P c → Q c) :
    Throughout Q s := fun c hc => hi c (h c hc)

theorem throughout_append_iff : Throughout P (s ++ t) ↔ Throughout P s ∧ Throughout P t := by
  rw [Throughout, String.toList_append, List.forall_mem_append]
  rfl

theorem throughout_after_iff (hl : Throughout P lead) :
    Throughout P (lead ++ s) ↔ Throughout P s := by
  rw [throughout_append_iff]
  exact and_iff_right hl

theorem throughout_around_iff (hl : Throughout P lead) (ht : Throughout P tail) :
    Throughout P (lead ++ s ++ tail) ↔ Throughout P s := by
  rw [throughout_append_iff, throughout_after_iff hl]
  exact and_iff_left ht

theorem Throughout.around (hl : Throughout P lead) (hs : Throughout P s) (ht : Throughout P tail) :
    Throughout P (lead ++ s ++ tail) := (throughout_around_iff hl ht).mpr hs

/-! ## Values -/

/-- The word that stands for a number, if it is missing. -/
def numberWords : Option Int → List String
  | none => [missingValue]
  | some _ => []

/-- The word of a value that is no number. -/
def valueWords : Option ActionValue → List String
  | none => [missingValue]
  | some (.text s) => [s]
  | some (.number _) => []

theorem ordinary_write {n : Int} (h : Numeral.write n = .ok t) : Throughout Ordinary t := by
  obtain rfl := write_eq_ok h
  exact fun c hc => (isSigned_of_mem_toString hc).ordinary

theorem ordinary_pinText (h : pinText p = .ok t) : Throughout Ordinary t := by
  cases p with
  | none =>
    obtain rfl := Except.ok.inj h
    decide
  | some n => exact ordinary_write h

section

variable (hP : ∀ c, Ordinary c → P c)
include hP

theorem throughout_numberText_iff (h : numberText n = .ok t) :
    Throughout P t ↔ ∀ s ∈ numberWords n, Throughout P s := by
  cases n with
  | none =>
    obtain rfl := Except.ok.inj h
    exact List.forall_mem_singleton.symm
  | some n => exact iff_of_true ((ordinary_write h).mono hP) (List.forall_mem_nil _)

theorem throughout_valueText_iff (h : valueText v = .ok t) :
    Throughout P t ↔ ∀ s ∈ valueWords v, Throughout P s := by
  rcases v with _ | s | n
  · obtain rfl := Except.ok.inj h
    exact List.forall_mem_singleton.symm
  · obtain rfl := Except.ok.inj h
    exact List.forall_mem_singleton.symm
  · exact iff_of_true ((ordinary_write h).mono hP) (List.forall_mem_nil _)

end

/-! ## Instructions -/

/-- The texts that are put into the sentence of an instruction. -/
def Instruction.words : Instruction → List String
  | pinMode part pin mode => [part, pin.shown, mode.text]
  | setDigitalPin _ v | servoWrite _ v | lcdPrint v => valueWords v
  | conditional c => [c.getD missingValue]
  | delay n | repetition n => numberWords n
  | program | setup | loop | ultrasonicRead _ | digitalRead _ => []

theorem Instruction.throughout_text_iff {i : Instruction} (hP : ∀ c, Ordinary c → P c)
    (h : i.text = .ok t) : Throughout P t ↔ ∀ s ∈ i.words, Throughout P s := by
  -- The fixed words around the texts and numbers of the sentence.
  have fixed {s : String} (hs : Throughout Ordinary s) : Throughout P s := hs.mono hP
  cases i with
  | program | setup | loop =>
    obtain rfl := Except.ok.inj h
    exact iff_of_true (fixed (by decide)) (List.forall_mem_nil _)
  | pinMode part pin mode =>
    obtain rfl := Except.ok.inj h
    have lead : Throughout P "Add Pin Mode block for " := fixed (by decide)
    have between : Throughout P " on pin " := fixed (by decide)
    have last : Throughout P " to " := fixed (by decide)
    have text_iff : Throughout P s!"Add Pin Mode block for {part} on pin {pin.shown} to {mode.text}" ↔
        Throughout P part ∧ Throughout P pin.shown ∧ Throughout P mode.text := by
      simp only [ToString.toString, throughout_append_iff, lead, between, last, true_and, and_true,
        and_assoc]
    rw [text_iff, Instruction.words, List.forall_mem_cons, List.forall_mem_cons,
      List.forall_mem_singleton]
  | setDigitalPin p v =>
    simp only [text, bind_eq_ok_iff, pure_eq_ok_iff] at h
    obtain ⟨q, hq, u, hu, rfl⟩ := h
    have lead : Throughout Ordinary ("Add Set Digital Pin block for pin " ++ q ++ " to ") :=
      .around (by decide) (ordinary_pinText hq) (by decide)
    exact (throughout_after_iff (fixed lead)).trans (throughout_valueText_iff hP hu)
  | servoWrite p v =>
    simp only [text, bind_eq_ok_iff, pure_eq_ok_iff] at h
    obtain ⟨q, hq, u, hu, rfl⟩ := h
    have lead : Throughout Ordinary ("Add Servo Write block for pin " ++ q ++ " to ") :=
      .around (by decide) (ordinary_pinText hq) (by decide)
    exact (throughout_around_iff (fixed lead) (fixed (by decide))).trans
      (throughout_valueText_iff hP hu)
  | lcdPrint v =>
    simp only [text, bind_eq_ok_iff, pure_eq_ok_iff] at h
    obtain ⟨u, hu, rfl⟩ := h
    exact (throughout_around_iff (fixed (by decide)) (fixed (by decide))).trans
      (throughout_valueText_iff hP hu)
  | conditional c =>
    obtain rfl := Except.ok.inj h
    exact (throughout_around_iff (fixed (by decide)) (fixed (by decide))).trans
      List.forall_mem_singleton.symm
  | delay n | repetition n =>
    simp only [text, bind_eq_ok_iff, pure_eq_ok_iff] at h
    obtain ⟨q, hq, rfl⟩ := h
    exact (throughout_around_iff (fixed (by decide)) (fixed (by decide))).trans
      (throughout_numberText_iff hP hq)
  | ultrasonicRead p | digitalRead p =>
    simp only [text, bind_eq_ok_iff, pure_eq_ok_iff] at h
    obtain ⟨q, hq, rfl⟩ := h
    exact iff_of_true ((throughout_after_iff (fixed (by decide))).mpr (fixed (ordinary_pinText hq)))
      (List.forall_mem_nil _)

theorem throughout_step_iff {P : Char → Prop} (hP : ∀ c, Ordinary c → P c) {x : Line} {u : Step}
    (h : x.step = .ok u) : Throughout P u.text ↔ ∀ w ∈ x.instruction.words, Throughout P w := by
  obtain ⟨t, ht, hu⟩ := bind_eq_ok_iff.mp h
  obtain rfl := pure_eq_ok_iff.mp hu
  exact Instruction.throughout_text_iff hP ht

/-! ## Statements -/

/-- The texts that are put into a statement. -/
def Sketch.Statement.words : Statement → List String
  | servoWrite _ v | printLine v => valueWords v
  | conditionNote c => [c.getD missingValue]
  | delay n | openLoop n => numberWords n
  | digitalWrite .. | echoNote _ | readEcho _ | readSensor _ | closeLoop => []

theorem Sketch.Statement.throughout_text_iff {st : Statement} (hP : ∀ c, Ordinary c → P c)
    (h : st.text = .ok t) : Throughout P t ↔ ∀ s ∈ st.words, Throughout P s := by
  have fixed {s : String} (hs : Throughout Ordinary s) : Throughout P s := hs.mono hP
  cases st with
  | digitalWrite p high =>
    simp only [text, bind_eq_ok_iff, pure_eq_ok_iff] at h
    obtain ⟨q, hq, rfl⟩ := h
    have lead : Throughout Ordinary ("digitalWrite(" ++ q ++ ", ") :=
      .around (by decide) (ordinary_pinText hq) (by decide)
    have level : Throughout Ordinary (if high then "HIGH" else "LOW") := by
      cases high <;> decide
    exact iff_of_true (fixed (lead.around level (by decide))) (List.forall_mem_nil _)
  | servoWrite p v =>
    simp only [text, bind_eq_ok_iff, pure_eq_ok_iff] at h
    obtain ⟨q, hq, u, hu, rfl⟩ := h
    have lead : Throughout Ordinary ("analogWrite(" ++ q ++ ", map(") :=
      .around (by decide) (ordinary_pinText hq) (by decide)
    exact (throughout_around_iff (fixed lead) (fixed (by decide))).trans
      (throughout_valueText_iff hP hu)
  | printLine v =>
    simp only [text, bind_eq_ok_iff, pure_eq_ok_iff] at h
    obtain ⟨u, hu, rfl⟩ := h
    exact (throughout_around_iff (fixed (by decide)) (fixed (by decide))).trans
      (throughout_valueText_iff hP hu)
  | conditionNote c =>
    obtain rfl := Except.ok.inj h
    exact (throughout_after_iff (fixed (by decide))).trans List.forall_mem_singleton.symm
  | delay n | openLoop n =>
    simp only [text, bind_eq_ok_iff, pure_eq_ok_iff] at h
    obtain ⟨q, hq, rfl⟩ := h
    exact (throughout_around_iff (fixed (by decide)) (fixed (by decide))).trans
      (throughout_numberText_iff hP hq)
  | echoNote p =>
    simp only [text, bind_eq_ok_iff, pure_eq_ok_iff] at h
    obtain ⟨q, hq, rfl⟩ := h
    exact iff_of_true ((throughout_after_iff (fixed (by decide))).mpr (fixed (ordinary_pinText hq)))
      (List.forall_mem_nil _)
  | readEcho p | readSensor p =>
    simp only [text, bind_eq_ok_iff, pure_eq_ok_iff] at h
    obtain ⟨q, hq, rfl⟩ := h
    exact iff_of_true (fixed (.around (by decide) (ordinary_pinText hq) (by decide)))
      (List.forall_mem_nil _)
  | closeLoop =>
    obtain rfl := Except.ok.inj h
    exact iff_of_true (fixed (by decide)) (List.forall_mem_nil _)

end BlockSketch
