import BlockSketch.Proofs.PinNames

/-! # Names of pins as identifiers

The name of a pin is meant for a macro, so it has to be an identifier. Labels are put into upper case
and their blanks are folded, which makes identifiers of all labels that are words. The kinds of parts
are treated alike, but one of them has a hyphen.
-/

namespace BlockSketch

open Text

variable {s : List Char} {d : Char} {w : String} {c : Component} {cs : List Component} {i : Nat}
  {b : Board} {as : List Action} {day : Date} {ls : List String}

/-! ## Identifiers -/

/-- The character may begin the name of a macro. -/
def BeginsMacro (d : Char) : Prop := d.isUpper = true ∨ d = '_'

instance : DecidablePred BeginsMacro := fun _ => inferInstanceAs (Decidable (_ ∨ _))

/-- The character may stand in the name of a macro. -/
def GoesOnMacro (d : Char) : Prop := BeginsMacro d ∨ d.isDigit = true

instance : DecidablePred GoesOnMacro := fun _ => inferInstanceAs (Decidable (_ ∨ _))

/-- The name of a macro: a capital letter or underscore, then capital letters, digits and
underscores. -/
def IsMacro (w : String) : Prop := ∃ d s, w.toList = d :: s ∧ BeginsMacro d ∧ ∀ e ∈ s, GoesOnMacro e

instance : DecidablePred IsMacro := fun w =>
  match h : w.toList with
  | [] => isFalse fun ⟨d, s, hw, _⟩ => by simp [h] at hw
  | d :: s => decidable_of_iff (BeginsMacro d ∧ ∀ e ∈ s, GoesOnMacro e) (by simp [IsMacro, h])

/-- A text in which an ASCII letter is followed by ASCII letters, digits and blanks. -/
def IsWorded (w : String) : Prop := ∃ d s, w.toList = d :: s ∧ d.isAlpha = true ∧
  ∀ e ∈ s, e.isAlphanum = true ∨ isBlank e = true

theorem isMacro_append_iff {u : String} (hu : ∀ e ∈ u.toList, GoesOnMacro e) (hw : w ≠ "") :
    IsMacro (w ++ u) ↔ IsMacro w := by
  obtain ⟨d, s, hs⟩ := List.exists_cons_of_ne_nil (mt String.toList_eq_nil_iff.mp hw)
  simp only [IsMacro, String.toList_append, hs, List.cons_append, List.cons.injEq]
  constructor
  · rintro ⟨_, _, ⟨rfl, rfl⟩, hb, hg⟩
    exact ⟨d, s, ⟨rfl, rfl⟩, hb, (List.forall_mem_append.mp hg).1⟩
  · rintro ⟨_, _, ⟨rfl, rfl⟩, hb, hg⟩
    exact ⟨d, s ++ u.toList, ⟨rfl, rfl⟩, hb, List.forall_mem_append.mpr ⟨hg, hu⟩⟩

/-! ## Labels -/

namespace Text

/-- Blanks stay as they are in upper case. -/
theorem upperChar_of_isBlank (h : isBlank d = true) : upperChar d = [d] ∧ d.toUpper = d :=
  (separate_of_isBlank h).1

/-- A text of ASCII letters, digits and blanks is raised character by character. -/
theorem upper_eq_map_of_word (h : ∀ e ∈ s, e.isAlphanum = true ∨ isBlank e = true) :
    upper s = s.map Char.toUpper := by
  rw [upper, List.map_eq_flatMap]
  refine List.flatMap_congr fun e he => ?_
  rcases h e he with hn | hb
  · exact upperChar_of_lt (toNat_lt_of_isAlphanum hn)
  · obtain ⟨hu, ht⟩ := upperChar_of_isBlank hb
    rw [hu, ht]

end Text

namespace Sketch

theorem eq_or_mem_of_mem_joinBlanks (h : d ∈ joinBlanks s) : d = '_' ∨ d ∈ s := by
  fun_induction joinBlanks s with
  | case1 => cases h
  | case2 => exact .inl (List.mem_singleton.mp h)
  | case3 _ _ _ _ _ ih => exact (ih h).imp_right (List.mem_cons_of_mem _)
  | case4 _ _ _ _ _ ih =>
    rcases List.mem_cons.mp h with rfl | h
    · exact .inl rfl
    · exact (ih h).imp_right (List.mem_cons_of_mem _)
  | case5 e _ _ ih =>
    rcases List.mem_cons.mp h with rfl | h
    · exact .inr List.mem_cons_self
    · exact (ih h).imp_right (List.mem_cons_of_mem _)

theorem joinBlanks_cons_of_not_isBlank (h : isBlank d = false) :
    joinBlanks (d :: s) = d :: joinBlanks s := by
  simp [joinBlanks, h]

/-- Letters and digits stand in names of macros in upper case, and letters begin them. -/
def Capitalises (d : Char) : Prop :=
  (d.isAlpha = true → BeginsMacro d.toUpper ∧ isBlank d.toUpper = false) ∧
    (d.isAlphanum = true → GoesOnMacro d.toUpper)

instance : DecidablePred Capitalises := fun _ => inferInstanceAs (Decidable (_ ∧ _))

theorem capitalises (h : d.isAlphanum = true) : Capitalises d :=
  forall_ascii (P := Capitalises) (by decide +kernel) (toNat_lt_of_isAlphanum h)

theorem isMacro_folded (h : IsWorded w) : IsMacro (folded w) := by
  obtain ⟨d, s, hw, hd, hs⟩ := h
  have letter := (capitalises (isAlphanum_of_isAlpha hd)).1 hd
  have words : ∀ e ∈ d :: s, e.isAlphanum = true ∨ isBlank e = true :=
    List.forall_mem_cons.mpr ⟨.inl (isAlphanum_of_isAlpha hd), hs⟩
  refine ⟨d.toUpper, joinBlanks (s.map Char.toUpper), ?_, letter.1, fun e he => ?_⟩
  · rw [folded, String.toList_ofList, hw, upper_eq_map_of_word words, List.map_cons,
      joinBlanks_cons_of_not_isBlank letter.2]
  · have solid : isBlank e = false := not_isBlank_of_mem_joinBlanks he
    rcases eq_or_mem_of_mem_joinBlanks he with rfl | he
    · exact .inl (.inr rfl)
    · obtain ⟨x, hx, rfl⟩ := List.mem_map.mp he
      rcases hs x hx with hn | hb
      · exact (capitalises hn).2 hn
      · -- Blanks are folded, so the character is no blank in upper case.
        rw [(upperChar_of_isBlank hb).2, hb] at solid
        cases solid

/-! ## Kinds -/

/-- Of all kinds, only one makes names that are no identifiers. -/
theorem isMacro_kind_iff : ∀ k ∈ kinds, String.ofList (k.toList.map Char.toUpper) ≠ "" ∧
    (IsMacro (String.ofList (k.toList.map Char.toUpper)) ↔ k ≠ "dc-motor") := by
  decide +kernel

theorem isMacro_generated_append_iff {u : String} (hk : c.kindName ∈ kinds)
    (hu : ∀ e ∈ u.toList, GoesOnMacro e) :
    IsMacro (generated c i ++ u) ↔ c.kindName ≠ "dc-motor" := by
  obtain ⟨hn, he⟩ := isMacro_kind_iff _ hk
  have split : generated c i ++ u = String.ofList (c.kindName.toList.map Char.toUpper) ++
      (String.ofList (placeDigits i) ++ u) := by
    rw [← String.toList_inj]
    simp only [String.toList_append, String.toList_ofList, toList_generated hk, List.append_assoc]
  have rest : ∀ e ∈ (String.ofList (placeDigits i) ++ u).toList, GoesOnMacro e := by
    rw [String.toList_append, String.toList_ofList]
    exact List.forall_mem_append.mpr ⟨fun e he => .inr (isDigit_of_mem_placeDigits he), hu⟩
  rw [split, isMacro_append_iff rest hn, he]

end Sketch

/-- The label, if there is any, begins with an ASCII letter and goes on with ASCII letters, digits and
blanks. -/
def Component.WellLabelled (c : Component) : Prop := ∀ l ∈ c.label, ∃ w, l = .text w ∧ IsWorded w

namespace PinName

open Sketch

theorem isMacro_name_iff (hk : c.kindName ∈ kinds) (hl : c.WellLabelled) :
    IsMacro (stem c i ++ "_PIN") ↔ (c.label = none → c.kindName ≠ "dc-motor") := by
  have suffix : ∀ e ∈ "_PIN".toList, GoesOnMacro e := by decide
  cases hc : c.label with
  | none =>
    rw [stem_of_none hc, forall_prop_of_true rfl]
    exact isMacro_generated_append_iff hk suffix
  | some l =>
    obtain ⟨w, rfl, hw⟩ := hl l hc
    have named := isMacro_folded hw
    have filled : folded w ≠ "" := fun he => absurd (he ▸ named) (by decide)
    rw [stem_of_label hc]
    exact iff_of_true ((isMacro_append_iff suffix filled).mpr named) nofun

theorem isMacro_ofComponents_iff (hk : ∀ c ∈ cs, c.kindName ∈ kinds)
    (hl : ∀ c ∈ cs, c.WellLabelled) : (∀ x ∈ ofComponents cs, IsMacro x.name) ↔
      ∀ c ∈ cs, c.label = none → c.kindName = "dc-motor" → places c = [] := by
  rw [ofComponents, List.forall_mem_flatMap]
  refine forall₂_congr fun c hc => ?_
  have names : (∀ x ∈ ofComponent c, IsMacro x.name) ↔
      ∀ i ∈ places c, c.label = none → c.kindName ≠ "dc-motor" := by
    rw [← List.forall_mem_map, map_name_ofComponent, List.forall_mem_map]
    exact forall₂_congr fun i _ => isMacro_name_iff (hk c hc) (hl c hc)
  rw [names]
  constructor
  · intro h hn hd
    exact List.eq_nil_iff_forall_not_mem.mpr fun i hi => h i hi hn hd
  · intro h i hi hn hd
    exact List.not_mem_nil (h hn hd ▸ hi)

/-- If a report has no errors and the labels are words, the sketch names the pins by identifiers
exactly if every motor with a numbered pin has a label. The lines of the text give these names too, if
no line is broken. -/
theorem names_isMacro_iff {r : Report} (h : Validation.report b cs = .ok r)
    (hs : r.status ≠ .error) (hl : ∀ c ∈ cs, c.WellLabelled)
    (ht : Sketch.lines as cs b day = .ok ls) :
    ((∀ x ∈ ofSketch ls, IsMacro x.name) ↔
      ∀ c ∈ cs, c.label = none → c.kindName = "dc-motor" → places c = []) ∧
    ∀ text, Sketch.render as cs b day = .ok text → (∀ t ∈ ls, Unbroken t) →
      ofSketch (PinSetup.textLines text) = ofSketch ls := by
  have fits := Validation.fits_of_report h hs
  refine ⟨?_, fun text => ofSketch_textLines ht⟩
  rw [(ofSketch_lines fits.known ht).1]
  exact isMacro_ofComponents_iff (fun c hc => kindName_mem_kinds (fits.known c hc)) hl

/-- A motor and a light with labels, and a custom part and an analog motor without one. -/
def labelledBench : List Component := [⟨"1", .known "dc-motor", "5", some (.text "left motor")⟩,
  ⟨"2", .known "led", "13", some (.text "main\u00a0led 2")⟩,
  ⟨"3", .custom ⟨"Relay", 1, [.digital], [], "Other"⟩, "6", none⟩,
  ⟨"4", .known "dc-motor", "A0", none⟩]

theorem names_isMacro_iff_bench :
    (∃ r, Validation.report .uno labelledBench = .ok r ∧ r.status ≠ .error) ∧
      (∀ c ∈ labelledBench, c.WellLabelled) ∧
      ∃ ls, Sketch.lines [] labelledBench .uno ⟨2024, 5, 1⟩ = .ok ls ∧
        ofSketch ls = [⟨"LEFT_MOTOR_PIN", "5"⟩, ⟨"MAIN_LED_2_PIN", "13"⟩, ⟨"CUSTOM1_PIN", "6"⟩] ∧
        ∀ x ∈ ofSketch ls, IsMacro x.name := by
  have hr : Validation.report .uno labelledBench = .ok ⟨[], 4, ⟨3, 1⟩⟩ := by rfl
  have motor : IsWorded "left motor" := ⟨'l', "eft motor".toList, rfl, by decide, by decide⟩
  have light : IsWorded "main\u00a0led 2" := ⟨'m', "ain\u00a0led 2".toList, rfl, by decide, by decide⟩
  have words : ∀ c ∈ labelledBench, c.WellLabelled := by
    simp [labelledBench, Component.WellLabelled, motor, light]
  have analog : ∀ c ∈ labelledBench, c.label = none → c.kindName = "dc-motor" → places c = [] := by
    simp only [labelledBench, List.forall_mem_cons]
    refine ⟨nofun, nofun, fun _ h => absurd h (by decide), fun _ _ => by rfl, nofun⟩
  obtain ⟨ls, hl⟩ : ∃ ls, Sketch.lines [] labelledBench .uno ⟨2024, 5, 1⟩ = .ok ls := ⟨_, rfl⟩
  have names := (names_isMacro_iff hr (by decide) words hl).1.mpr analog
  have he := (ofSketch_lines (by decide) hl).1
  exact ⟨⟨_, hr, by decide⟩, words, ls, hl, he.trans (by rfl), names⟩

/-- A motor without a label. -/
def plainMotor : List Component := [⟨"1", .known "dc-motor", "5", none⟩]

/-- The name of its pin has a hyphen. -/
theorem names_not_isMacro_plainMotor : ∃ r ls, Validation.report .uno plainMotor = .ok r ∧
    r.status ≠ .error ∧ (∀ c ∈ plainMotor, c.WellLabelled) ∧
      Sketch.lines [] plainMotor .uno ⟨2024, 5, 1⟩ = .ok ls ∧
      ofSketch ls = [⟨"DC-MOTOR1_PIN", "5"⟩] ∧ ¬ IsMacro "DC-MOTOR1_PIN" := by
  refine ⟨_, _, rfl, by decide, by simp [plainMotor, Component.WellLabelled], rfl, rfl, by decide⟩

end PinName

end BlockSketch
