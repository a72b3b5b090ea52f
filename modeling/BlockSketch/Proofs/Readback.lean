import BlockSketch.Proofs.Effects
import BlockSketch.Proofs.Outcome

/-! # Reading back instructions and statements

The texts of instructions and of statements determine what they do: the gaps of each form are filled
with texts that do not hold what ends the gap.
-/

namespace BlockSketch

open Text

variable {p d : Option Int} {n : Int} {v : Option ActionValue} {t : String} {c : Char}

/-! ## Numbers -/

/-- The characters of decimal numbers. -/
def IsSigned (c : Char) : Prop := c = '-' ∨ c.isDigit = true

instance : DecidablePred IsSigned := fun c =>
  inferInstanceAs (Decidable (c = '-' ∨ c.isDigit = true))

theorem isSigned_of_mem_toString (h : c ∈ (toString n).toList) : IsSigned c := by
  have digits {k : Nat} (h : c ∈ k.repr.toList) : c.isDigit = true := by
    rw [Nat.toList_repr] at h
    exact Nat.isDigit_of_mem_toDigits (by decide) (by decide) h
  rw [Int.toString_eq_repr, Int.repr_eq_if] at h
  split at h
  · exact .inr (digits h)
  · rw [String.toList_append] at h
    rcases List.mem_append.mp h with h | h
    · exact .inl (List.mem_singleton.mp h)
    · exact .inr (digits h)

theorem write_eq_ok (h : Numeral.write n = .ok t) : toString n = t := by
  rw [Numeral.write] at h
  split at h
  · simp at h
  · simpa using h

/-- The text of a pin holds no character that is neither a question mark nor part of a number. -/
theorem not_mem_pinText (h : pinText p = .ok t) (hc : ¬ (c = '?' ∨ IsSigned c)) : c ∉ t.toList := by
  intro hm
  cases p with
  | none =>
    obtain rfl := Except.ok.inj h
    exact hc (.inl (List.mem_singleton.mp hm))
  | some n =>
    obtain rfl := write_eq_ok h
    exact hc (.inr (isSigned_of_mem_toString hm))

namespace Effect

/-! ## Gaps -/

section
variable {α : Type} {lead sep tail m a b : String}

theorem between?_append (lead m tail : List Char) :
    between? lead tail (lead ++ (m ++ tail)) = some m := by
  simp [between?, after?_append]

theorem cut?_append {s a b : List Char} (h : c ∉ a) :
    cut? (c :: s) (a ++ (c :: s ++ b)) = some (a, b) := by
  induction a with
  | nil =>
    have ha : after? (c :: s) (c :: (s ++ b)) = some b := after?_append (c :: s) b
    simp [cut?, ha]
  | cons d a ih =>
    obtain ⟨hd, ha⟩ : c ≠ d ∧ c ∉ a := by simpa using h
    have hn := ih ha
    simp only [List.cons_append] at hn ⊢
    simp [cut?, after?, hd, hn]

theorem one?_append (f : String → α) :
    one? lead tail f (lead ++ m ++ tail).toList = some (f m) := by
  have hb := between?_append lead.toList m.toList tail.toList
  simp only [one?, String.toList_append, List.append_assoc, hb, Option.map_some,
    String.ofList_toList]

theorem one?_append_last (f : String → α) : one? lead "" f (lead ++ m).toList = some (f m) := by
  have h : one? lead "" f (lead ++ m ++ "").toList = some (f m) := one?_append f
  rwa [String.append_empty] at h

theorem two?_append (f : String → String → α) (hs : sep.toList.head? = some c)
    (hc : c ∉ a.toList) :
    two? lead sep tail f (lead ++ a ++ sep ++ b ++ tail).toList = some (f a b) := by
  obtain ⟨s, hs⟩ := List.head?_eq_some_iff.mp hs
  have hb := between?_append lead.toList (a.toList ++ (sep.toList ++ b.toList)) tail.toList
  have hcut : cut? (c :: s) (a.toList ++ (c :: s ++ b.toList)) = some (a.toList, b.toList) :=
    cut?_append hc
  rw [← hs] at hcut
  simp only [List.append_assoc] at hb
  simp only [two?, String.toList_append, List.append_assoc, hb, hcut, Option.bind_eq_bind,
    Option.bind_some, String.ofList_toList]
  rfl

/-- Two gaps of a text are filled in one way only, if the first filling does not hold what ends it. -/
theorem fillings_inj {a' b' : String} (hs : sep.toList.head? = some c) (ha : c ∉ a.toList)
    (ha' : c ∉ a'.toList) (h : lead ++ a ++ sep ++ b ++ tail = lead ++ a' ++ sep ++ b' ++ tail) :
    a = a' ∧ b = b' := by
  have read : two? lead sep tail Prod.mk (lead ++ a ++ sep ++ b ++ tail).toList = some (a, b) :=
    two?_append Prod.mk hs ha
  rw [h, two?_append Prod.mk hs ha'] at read
  exact (Prod.mk.inj (Option.some.inj read)).imp Eq.symm Eq.symm

theorem two?_append_last (f : String → String → α) (hs : sep.toList.head? = some c)
    (hc : c ∉ a.toList) : two? lead sep "" f (lead ++ a ++ sep ++ b).toList = some (f a b) := by
  have h : two? lead sep "" f (lead ++ a ++ sep ++ b ++ "").toList = some (f a b) :=
    two?_append f hs hc
  rwa [String.append_empty] at h

end

/-! ## Steps -/

/-- The effect of an instruction, with the texts of its values. -/
inductive Shows : Instruction → Effect → Prop where
  | setPin {p : Option Int} {v : Option ActionValue} {t u : String} : pinText p = .ok t →
      valueText v = .ok u → Shows (.setDigitalPin p v) (.setPin t u)
  | delay {d : Option Int} {t : String} : numberText d = .ok t → Shows (.delay d) (.delay t)
  | turnServo {p : Option Int} {v : Option ActionValue} {t u : String} : pinText p = .ok t →
      valueText v = .ok u → Shows (.servoWrite p v) (.turnServo t u)
  | readUltrasonic {p : Option Int} {t : String} : pinText p = .ok t →
      Shows (.ultrasonicRead p) (.readUltrasonic t)
  | readDigital {p : Option Int} {t : String} : pinText p = .ok t →
      Shows (.digitalRead p) (.readDigital t)
  | print {v : Option ActionValue} {t : String} : valueText v = .ok t →
      Shows (.lcdPrint v) (.print t)
  | check (c : Option String) : Shows (.conditional c) (.check (c.getD missingValue))
  | repetition {n : Option Int} {t : String} : numberText n = .ok t →
      Shows (.repetition n) (.repetition t [])

/-- The instructions that stand in a loop. -/
def inLoop : Instruction → Bool
  | .program | .setup | .loop | .pinMode .. => false
  | _ => true

theorem shows_of_step {l : Int} {i : Instruction} {s : Step} (hi : inLoop i = true)
    (h : Line.step ⟨l, i⟩ = .ok s) : ∃ e, Shows i e ∧ ofStep? s = some e ∧ s.level = l := by
  obtain ⟨t, ht, hs⟩ := bind_eq_ok_iff.mp h
  obtain rfl := pure_eq_ok_iff.mp hs
  cases i with
  | setDigitalPin p v =>
    simp only [Instruction.text, bind_eq_ok_iff, pure_eq_ok_iff] at ht
    obtain ⟨q, hq, u, hu, rfl⟩ := ht
    exact ⟨_, .setPin hq hu, two?_append_last _ rfl (not_mem_pinText hq (by decide)), rfl⟩
  | delay d =>
    simp only [Instruction.text, bind_eq_ok_iff, pure_eq_ok_iff] at ht
    obtain ⟨q, hq, rfl⟩ := ht
    exact ⟨_, .delay hq, one?_append _, rfl⟩
  | servoWrite p v =>
    simp only [Instruction.text, bind_eq_ok_iff, pure_eq_ok_iff] at ht
    obtain ⟨q, hq, u, hu, rfl⟩ := ht
    exact ⟨_, .turnServo hq hu, two?_append _ rfl (not_mem_pinText hq (by decide)), rfl⟩
  | ultrasonicRead p =>
    simp only [Instruction.text, bind_eq_ok_iff, pure_eq_ok_iff] at ht
    obtain ⟨q, hq, rfl⟩ := ht
    exact ⟨_, .readUltrasonic hq, one?_append_last _, rfl⟩
  | digitalRead p =>
    simp only [Instruction.text, bind_eq_ok_iff, pure_eq_ok_iff] at ht
    obtain ⟨q, hq, rfl⟩ := ht
    exact ⟨_, .readDigital hq, one?_append_last _, rfl⟩
  | lcdPrint v =>
    simp only [Instruction.text, bind_eq_ok_iff, pure_eq_ok_iff] at ht
    obtain ⟨q, hq, rfl⟩ := ht
    exact ⟨_, .print hq, one?_append _, rfl⟩
  | conditional c =>
    obtain rfl := Except.ok.inj ht
    exact ⟨_, .check c, one?_append _, rfl⟩
  | repetition n =>
    simp only [Instruction.text, bind_eq_ok_iff, pure_eq_ok_iff] at ht
    obtain ⟨q, hq, rfl⟩ := ht
    exact ⟨_, .repetition hq, one?_append fun t => Effect.repetition t [], rfl⟩
  | program | setup | loop | pinMode => cases hi

/-! ## Statements -/

/-- The mark of a statement, with the texts of its values. -/
inductive Says : Sketch.Statement → Mark → Prop where
  | digitalWrite {p : Option Int} {t : String} (high : Bool) : pinText p = .ok t →
      Says (.digitalWrite p high) (.effect (setPin t (if high then "HIGH" else "LOW")))
  | delay {d : Option Int} {t : String} : numberText d = .ok t → Says (.delay d) (.effect (delay t))
  | servoWrite {p : Option Int} {v : Option ActionValue} {t u : String} : pinText p = .ok t →
      valueText v = .ok u → Says (.servoWrite p v) (.effect (turnServo t u))
  | echoNote {p : Option Int} {t : String} : pinText p = .ok t → Says (.echoNote p) (.note t)
  | readEcho {p : Option Int} {t : String} : pinText p = .ok t → Says (.readEcho p) (.echo t)
  | readSensor {p : Option Int} {t : String} : pinText p = .ok t →
      Says (.readSensor p) (.effect (readDigital t))
  | printLine {v : Option ActionValue} {t : String} : valueText v = .ok t →
      Says (.printLine v) (.effect (print t))
  | conditionNote (c : Option String) :
      Says (.conditionNote c) (.effect (check (c.getD missingValue)))
  | openLoop {n : Option Int} {t : String} : numberText n = .ok t → Says (.openLoop n) (.opening t)
  | closeLoop : Says .closeLoop .closing

section
variable {k : Nat} {lead sep tail m a b : String} {f : String → Mark} {g : String → String → Mark}

/-- The forms before place `k` do not fit a text with the beginning. -/
def Unread (k : Nat) (lead : String) : Prop :=
  ∀ r, (forms.take k).all (fun f => (f (lead.toList ++ r)).isNone) = true

/-- A text is read by the first form that fits its beginning. -/
theorem findSome?_forms {f : List Char → Option Mark} {r : List Char} {m : Mark}
    (hk : forms[k]? = some f) (hn : Unread k lead) (hm : f (lead.toList ++ r) = some m) :
    forms.findSome? (fun f => f (lead.toList ++ r)) = some m := by
  obtain ⟨h, rfl⟩ := List.getElem?_eq_some_iff.mp hk
  rw [List.findSome?_eq_some_iff]
  refine ⟨forms.take k, forms[k], forms.drop (k + 1), ?_, hm, fun g hg => ?_⟩
  · rw [← List.drop_eq_getElem_cons h, List.take_append_drop]
  · exact Option.isNone_iff_eq_none.mp (List.all_eq_true.mp (hn r) g hg)

theorem findSome?_one (k : Nat) (hk : forms[k]? = some (one? lead tail f)) (hn : Unread k lead) :
    forms.findSome? (fun f => f (lead ++ m ++ tail).toList) = some (f m) := by
  have hm : one? lead tail f (lead ++ m ++ tail).toList = some (f m) := one?_append f
  rw [String.append_assoc, String.toList_append] at hm ⊢
  exact findSome?_forms hk hn hm

theorem findSome?_last (k : Nat) (hk : forms[k]? = some (one? lead "" f)) (hn : Unread k lead) :
    forms.findSome? (fun f => f (lead ++ m).toList) = some (f m) := by
  have hm : one? lead "" f (lead ++ m).toList = some (f m) := one?_append_last f
  rw [String.toList_append] at hm ⊢
  exact findSome?_forms hk hn hm

theorem findSome?_two (k : Nat) (hk : forms[k]? = some (two? lead sep tail g))
    (hn : Unread k lead) (hs : sep.toList.head? = some c) (hc : c ∉ a.toList) :
    forms.findSome? (fun f => f (lead ++ a ++ sep ++ b ++ tail).toList) = some (g a b) := by
  have hm : two? lead sep tail g (lead ++ a ++ sep ++ b ++ tail).toList = some (g a b) :=
    two?_append g hs hc
  simp only [String.append_assoc] at hm ⊢
  rw [String.toList_append] at hm ⊢
  exact findSome?_forms hk hn hm

end

theorem says_of_text {st : Sketch.Statement} (h : st.text = .ok t) :
    ∃ m, Says st m ∧ forms.findSome? (fun f => f t.toList) = some m := by
  cases st with
  | digitalWrite p high =>
    simp only [Sketch.Statement.text, bind_eq_ok_iff, pure_eq_ok_iff] at h
    obtain ⟨q, hq, rfl⟩ := h
    have hc := not_mem_pinText hq (c := ',') (by decide)
    exact ⟨_, .digitalWrite high hq, findSome?_two 0 rfl (fun _ => rfl) rfl hc⟩
  | delay d =>
    simp only [Sketch.Statement.text, bind_eq_ok_iff, pure_eq_ok_iff] at h
    obtain ⟨q, hq, rfl⟩ := h
    exact ⟨_, .delay hq, findSome?_one 1 rfl fun _ => rfl⟩
  | servoWrite p v =>
    simp only [Sketch.Statement.text, bind_eq_ok_iff, pure_eq_ok_iff] at h
    obtain ⟨q, hq, u, hu, rfl⟩ := h
    have hc := not_mem_pinText hq (c := ',') (by decide)
    exact ⟨_, .servoWrite hq hu, findSome?_two 2 rfl (fun _ => rfl) rfl hc⟩
  | echoNote p =>
    simp only [Sketch.Statement.text, bind_eq_ok_iff, pure_eq_ok_iff] at h
    obtain ⟨q, hq, rfl⟩ := h
    exact ⟨_, .echoNote hq, findSome?_last 3 rfl fun _ => rfl⟩
  | readEcho p =>
    simp only [Sketch.Statement.text, bind_eq_ok_iff, pure_eq_ok_iff] at h
    obtain ⟨q, hq, rfl⟩ := h
    exact ⟨_, .readEcho hq, findSome?_one 4 rfl fun _ => rfl⟩
  | readSensor p =>
    simp only [Sketch.Statement.text, bind_eq_ok_iff, pure_eq_ok_iff] at h
    obtain ⟨q, hq, rfl⟩ := h
    exact ⟨_, .readSensor hq, findSome?_one 5 rfl fun _ => rfl⟩
  | printLine v =>
    simp only [Sketch.Statement.text, bind_eq_ok_iff, pure_eq_ok_iff] at h
    obtain ⟨q, hq, rfl⟩ := h
    exact ⟨_, .printLine hq, findSome?_one 6 rfl fun _ => rfl⟩
  | conditionNote c =>
    obtain rfl := Except.ok.inj h
    exact ⟨_, .conditionNote c, findSome?_last 7 rfl fun _ => rfl⟩
  | openLoop n =>
    simp only [Sketch.Statement.text, bind_eq_ok_iff, pure_eq_ok_iff] at h
    obtain ⟨q, hq, rfl⟩ := h
    exact ⟨_, .openLoop hq, findSome?_one 8 rfl fun _ => rfl⟩
  | closeLoop =>
    obtain rfl := Except.ok.inj h
    exact ⟨_, .closeLoop, rfl⟩

end Effect

end BlockSketch
