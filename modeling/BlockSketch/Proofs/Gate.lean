import BlockSketch.Proofs.Outcome
import BlockSketch.Validation.Check
import Mathlib.Data.List.Nodup

/-! # The generation gate

The checker walks over components and pins with a growing list of taken pins. Its verdict is
nevertheless a plain property of the declaration: generation is allowed exactly when the
components fit on the board.
-/

namespace BlockSketch

/-- The pins that a component names, in order; none if they cannot be read. -/
def Component.pinList (c : Component) : List Pin :=
  match Pin.readAll c.pins with
  | .ok pins => pins
  | .error _ => []

theorem Component.pinList_of_ok {c : Component} {ps : List Pin} (h : Pin.readAll c.pins = .ok ps) :
    c.pinList = ps := by
  simp [pinList, h]

namespace Validation

variable {b : Board} {c : Component} {cs : List Component} {taken : List Pin}

/-- Numbers belong to the digital pins of a board, names to the analog ones. -/
def OnBoard (b : Board) : Pin → Prop
  | .number n => ∃ d ∈ b.profile.digitalPins, (d : Int) = n
  | .name s => s ∈ b.profile.analogPins

theorem has_iff {p : Pin} : b.has p = true ↔ OnBoard b p := by
  cases p <;> simp [Board.has, OnBoard]

/-- What a declaration must satisfy for a program to be made from it. -/
structure Fits (b : Board) (cs : List Component) : Prop where
  known : ∀ c ∈ cs, c.spec?.isSome
  counted : ∀ c ∈ cs, ∀ spec ∈ c.spec?, (c.pinList.length : Int) = spec.pinCount
  available : ∀ c ∈ cs, ∀ p ∈ c.pinList, OnBoard b p
  distinct : (cs.flatMap Component.pinList).Nodup

/-- Some pin of the component should modulate pulse widths and is a number that cannot. -/
def Unmodulated (b : Board) (c : Component) : Prop :=
  ∃ (spec : Spec) (j : Nat) (n : Int), c.spec? = some spec ∧ spec.pinTypes[j]? = some .pwm ∧
    c.pinList[j]? = some (.number n) ∧ ∀ d ∈ b.profile.pwmPins, (d : Int) ≠ n

theorem fits_nil : Fits b [] := ⟨by simp, by simp, by simp, by simp⟩

theorem fits_cons_iff : Fits b (c :: cs) ↔
    (∃ spec, c.spec? = some spec ∧ (c.pinList.length : Int) = spec.pinCount) ∧
      (∀ p ∈ c.pinList, OnBoard b p) ∧ c.pinList.Nodup ∧
      (∀ p ∈ cs.flatMap Component.pinList, p ∉ c.pinList) ∧ Fits b cs := by
  constructor
  · rintro ⟨hk, hn, ha, hd⟩
    obtain ⟨spec, hs⟩ := Option.isSome_iff_exists.mp (hk c List.mem_cons_self)
    rw [List.flatMap_cons, List.nodup_append'] at hd
    refine ⟨⟨spec, hs, hn c List.mem_cons_self spec hs⟩, ha c List.mem_cons_self, hd.1,
      fun p hp hc => hd.2.2 hc hp, ?_⟩
    exact ⟨fun d h => hk d (List.mem_cons_of_mem _ h), fun d h => hn d (List.mem_cons_of_mem _ h),
      fun d h => ha d (List.mem_cons_of_mem _ h), hd.2.1⟩
  · rintro ⟨⟨spec, hs, hl⟩, ha, hd, hj, hf⟩
    refine ⟨?_, ?_, ?_, ?_⟩
    · rintro d (_ | ⟨_, h⟩)
      · simp [hs]
      · exact hf.known d h
    · rintro d (_ | ⟨_, h⟩) spec' hs'
      · obtain rfl : spec = spec' := by simpa [hs] using hs'
        exact hl
      · exact hf.counted d h spec' hs'
    · rintro d (_ | ⟨_, h⟩)
      · exact ha
      · exact hf.available d h
    · rw [List.flatMap_cons, List.nodup_append']
      exact ⟨hd, hf.distinct, fun p hc hp => hj p hp hc⟩

/-! ## One component -/

/-- No complaint is an error. -/
def Harmless (xs : List Complaint) : Prop := ∀ x ∈ xs, x.severity ≠ .error

/-- Some complaint is a warning. -/
def Warns (xs : List Complaint) : Prop := ∃ x ∈ xs, x.severity = .warning

@[simp] theorem harmless_append_iff {xs ys : List Complaint} :
    Harmless (xs ++ ys) ↔ Harmless xs ∧ Harmless ys := List.forall_mem_append

@[simp] theorem warns_append_iff {xs ys : List Complaint} :
    Warns (xs ++ ys) ↔ Warns xs ∨ Warns ys := by
  simp only [Warns, List.mem_append, or_and_right, exists_or]

@[simp] theorem not_harmless_unavailable {p : Pin} {xs : List Complaint} :
    ¬ Harmless (.unavailable p b :: xs) := fun h => h _ List.mem_cons_self rfl

@[simp] theorem warns_unavailable {p : Pin} {xs : List Complaint} :
    Warns (.unavailable p b :: xs) ↔ Warns xs := by
  simp [Warns, Complaint.severity]

/-- The warning about a pin of the given type, if it deserves one. -/
def modulation (b : Board) (type : Option PinType) (p : Pin) : List Complaint :=
  if type = some .pwm && p.isNumber && !b.hasPwm p then [.notPwm p b] else []

/-- The error about a pin that is taken. -/
def reuse (taken : List Pin) (p : Pin) : List Complaint := if p ∈ taken then [.reused p] else []

@[simp] theorem harmless_modulation {type : Option PinType} {p : Pin} :
    Harmless (modulation b type p) := by
  unfold modulation Harmless; split <;> simp [Complaint.severity]

@[simp] theorem harmless_reuse_iff {p : Pin} : Harmless (reuse taken p) ↔ p ∉ taken := by
  unfold reuse Harmless; split <;> simp_all [Complaint.severity]

@[simp] theorem warns_modulation_iff {type : Option PinType} {p : Pin} :
    Warns (modulation b type p) ↔
      type = some .pwm ∧ ∃ n, p = .number n ∧ ∀ d ∈ b.profile.pwmPins, (d : Int) ≠ n := by
  cases p <;> simp [modulation, Warns, Pin.isNumber, Board.hasPwm, Complaint.severity]

@[simp] theorem not_warns_reuse {p : Pin} : ¬ Warns (reuse taken p) := by
  unfold reuse Warns; split <;> simp [Complaint.severity]

variable {types : List PinType} {p : Pin} {ps : List Pin}

theorem checkPins_cons_of_not_onBoard (h : ¬ OnBoard b p) : checkPins b taken types (p :: ps) =
    (.unavailable p b :: (checkPins b taken (types.drop 1) ps).1,
      (checkPins b taken (types.drop 1) ps).2) := by
  rw [checkPins, if_pos (by simpa [← has_iff] using h)]

theorem checkPins_cons_of_onBoard (h : OnBoard b p) : checkPins b taken types (p :: ps) =
    (modulation b types.head? p ++ reuse taken p ++
        (checkPins b (if p ∈ taken then taken else p :: taken) (types.drop 1) ps).1,
      (checkPins b (if p ∈ taken then taken else p :: taken) (types.drop 1) ps).2) := by
  rw [checkPins, if_neg (by simpa [← has_iff] using h)]
  rfl

/-- Exactly the pins that the board has are taken. -/
theorem mem_checkPins_taken_iff {q : Pin} :
    q ∈ (checkPins b taken types ps).2 ↔ q ∈ taken ∨ (q ∈ ps ∧ OnBoard b q) := by
  induction ps generalizing taken types with
  | nil => simp [checkPins]
  | cons p ps ih =>
    by_cases hp : OnBoard b p
    · rw [checkPins_cons_of_onBoard hp, ih]
      by_cases hq : q = p
      · subst hq
        split <;> simp_all
      · split <;> simp [hq]
    · rw [checkPins_cons_of_not_onBoard hp, ih]
      by_cases hq : q = p
      · subst hq
        simp [hp]
      · simp [hq]

/-- No complaint about the pins of a component is an error exactly if all of them are on the board,
different, and still free. -/
theorem checkPins_harmless_iff : Harmless (checkPins b taken types ps).1 ↔
    (∀ p ∈ ps, OnBoard b p) ∧ ps.Nodup ∧ ∀ p ∈ ps, p ∉ taken := by
  induction ps generalizing taken types with
  | nil => simp [checkPins, Harmless]
  | cons p ps ih =>
    by_cases hp : OnBoard b p
    · rw [checkPins_cons_of_onBoard hp]
      by_cases ht : p ∈ taken
      · simp [ht]
      · have hfree : (∀ q ∈ ps, q ∉ p :: taken) ↔ p ∉ ps ∧ ∀ q ∈ ps, q ∉ taken := by
          simp only [List.mem_cons, not_or, forall_and]
          exact and_congr_left fun _ => ⟨fun h hm => h p hm rfl, fun h q hq he => h (he ▸ hq)⟩
        simp only [harmless_append_iff, harmless_modulation, harmless_reuse_iff, ht,
          not_false_eq_true, if_false, ih, hfree, List.forall_mem_cons, hp, List.nodup_cons]
        tauto
    · rw [checkPins_cons_of_not_onBoard hp]
      simp [hp]

/-- The types that are due after the first pin, by their places from there on. -/
theorem getElem?_drop_one (j : Nat) : (types.drop 1)[j]? = types[j + 1]? := by
  rw [List.getElem?_drop, Nat.add_comm]

/-- There is a warning exactly about a number on the board that should modulate pulse widths and
cannot. -/
theorem checkPins_warns_iff : Warns (checkPins b taken types ps).1 ↔
    ∃ (j : Nat) (n : Int), types[j]? = some .pwm ∧ ps[j]? = some (.number n) ∧
      OnBoard b (.number n) ∧ ∀ d ∈ b.profile.pwmPins, (d : Int) ≠ n := by
  induction ps generalizing taken types with
  | nil => simp [checkPins, Warns]
  | cons p ps ih =>
    -- The first pin is at place 0, and the later ones are checked against the later types.
    rw [← Nat.or_exists_add_one]
    simp only [List.getElem?_cons_succ, ← List.head?_eq_getElem?, List.head?_cons,
      ← getElem?_drop_one]
    by_cases hp : OnBoard b p
    · rw [checkPins_cons_of_onBoard hp]
      simp only [warns_append_iff, warns_modulation_iff, not_warns_reuse, or_false, ih]
      refine or_congr_left ?_
      constructor
      · rintro ⟨ht, n, rfl, hw⟩
        exact ⟨n, ht, rfl, hp, hw⟩
      · rintro ⟨n, ht, hn, -, hw⟩
        exact ⟨ht, n, Option.some.inj hn, hw⟩
    · rw [checkPins_cons_of_not_onBoard hp, warns_unavailable, ih]
      have hno : ¬ ∃ n : Int, types.head? = some .pwm ∧ some p = some (.number n) ∧
          OnBoard b (.number n) ∧ ∀ d ∈ b.profile.pwmPins, (d : Int) ≠ n := by
        rintro ⟨n, -, hn, hb, -⟩
        exact hp (Option.some.inj hn ▸ hb)
      simp only [hno, false_or]

/-! ## All components -/

/-- What a successful check of a first component can be. -/
theorem checkFrom_cons {found : List Issue} (h : checkFrom b taken (c :: cs) = .ok found) :
    (c.spec? = none ∧ ∃ rest, checkFrom b taken cs = .ok rest ∧
        found = ⟨c.id, .unknownKind c.kindName⟩ :: rest) ∨
    (∃ spec, c.spec? = some spec ∧ (c.pinList.length : Int) ≠ spec.pinCount ∧
      ∃ rest, checkFrom b taken cs = .ok rest ∧
        found = ⟨c.id, .pinCount spec c.pinList.length⟩ :: rest) ∨
    (∃ spec, c.spec? = some spec ∧ (c.pinList.length : Int) = spec.pinCount ∧
      ∃ rest, checkFrom b (checkPins b taken spec.pinTypes c.pinList).2 cs = .ok rest ∧
        found = (checkPins b taken spec.pinTypes c.pinList).1.map (⟨c.id, ·⟩) ++ rest) := by
  rw [checkFrom] at h
  cases hs : c.spec? with
  | none =>
    simp only [hs, bind_eq_ok_iff, pure_eq_ok_iff] at h
    obtain ⟨rest, hr, rfl⟩ := h
    exact .inl ⟨rfl, rest, hr, rfl⟩
  | some spec =>
    simp only [hs, bind_eq_ok_iff] at h
    obtain ⟨pins, hp, h⟩ := h
    obtain rfl := Component.pinList_of_ok hp
    split at h <;> simp only [bind_eq_ok_iff, pure_eq_ok_iff] at h
    · next hl =>
      obtain ⟨rest, hr, rfl⟩ := h
      exact .inr (.inl ⟨spec, rfl, hl, rest, hr, rfl⟩)
    · next hl =>
      obtain ⟨rest, hr, rfl⟩ := h
      exact .inr (.inr ⟨spec, rfl, not_not.mp hl, rest, hr, rfl⟩)

theorem complaints_append (id : String) (xs : List Complaint) (rest : List Issue) :
    (xs.map (Issue.mk id) ++ rest).map Issue.complaint = xs ++ rest.map Issue.complaint := by
  simp [Function.comp_def]

/-- Nothing found is an error exactly if the components fit and none of their pins was taken. -/
theorem checkFrom_harmless_iff {found : List Issue} (h : checkFrom b taken cs = .ok found) :
    Harmless (found.map Issue.complaint) ↔
      Fits b cs ∧ ∀ p ∈ cs.flatMap Component.pinList, p ∉ taken := by
  induction cs generalizing taken found with
  | nil =>
    obtain rfl : [] = found := by simpa [checkFrom] using h
    simp [fits_nil, Harmless]
  | cons c cs ih =>
    rcases checkFrom_cons h with ⟨hs, rest, -, rfl⟩ | ⟨spec, hs, hl, rest, -, rfl⟩ |
      ⟨spec, hs, hl, rest, hr, rfl⟩
    · simp [fits_cons_iff, hs, Harmless, Complaint.severity]
    · simp [fits_cons_iff, hs, hl, Harmless, Complaint.severity]
    · rw [complaints_append, harmless_append_iff, checkPins_harmless_iff, ih hr, fits_cons_iff]
      simp only [hs, Option.some.injEq, exists_eq_left', hl, true_and, List.flatMap_cons,
        List.forall_mem_append, mem_checkPins_taken_iff]
      constructor
      · rintro ⟨⟨ha, hd, ht⟩, hf, hr⟩
        exact ⟨⟨ha, hd, fun p hp hc => hr p hp (.inr ⟨hc, ha p hc⟩), hf⟩, ht,
          fun p hp hc => hr p hp (.inl hc)⟩
      · rintro ⟨⟨ha, hd, hj, hf⟩, ht, hr⟩
        refine ⟨⟨ha, hd, ht⟩, hf, fun p hp hc => ?_⟩
        exact hc.elim (hr p hp) fun hc => hj p hp hc.1

/-- If the components fit, there is a warning exactly if some pin cannot modulate pulse widths though
it should. -/
theorem checkFrom_warns_iff {found : List Issue} (h : checkFrom b taken cs = .ok found)
    (hf : Fits b cs) : Warns (found.map Issue.complaint) ↔ ∃ c ∈ cs, Unmodulated b c := by
  induction cs generalizing taken found with
  | nil =>
    obtain rfl : [] = found := by simpa [checkFrom] using h
    simp [Warns]
  | cons c cs ih =>
    obtain ⟨⟨spec, hs, hl⟩, ha, -, -, hf⟩ := fits_cons_iff.mp hf
    have same {spec' : Spec} (hs' : c.spec? = some spec') : spec = spec' := by
      simpa [hs] using hs'
    rcases checkFrom_cons h with ⟨hs', -⟩ | ⟨spec', hs', hl', -⟩ | ⟨spec', hs', -, rest, hr, rfl⟩
    · simp [hs] at hs'
    · exact absurd hl (same hs' ▸ hl')
    · obtain rfl := same hs'
      have first : Warns (checkPins b taken spec.pinTypes c.pinList).1 ↔ Unmodulated b c := by
        rw [checkPins_warns_iff]
        constructor
        · rintro ⟨j, n, ht, hn, -, hw⟩
          exact ⟨spec, j, n, hs, ht, hn, hw⟩
        · rintro ⟨spec', j, n, hs', ht, hn, hw⟩
          obtain rfl := same hs'
          exact ⟨j, n, ht, hn, ha _ (List.mem_of_getElem? hn), hw⟩
      rw [complaints_append, warns_append_iff, first, ih hr hf]
      simp

/-! ## The report -/

theorem severity_eq_warning_iff {x : Complaint} : x.severity = .warning ↔ x.severity ≠ .error := by
  cases x <;> simp [Complaint.severity]

theorem allowsGeneration_iff {r : Report} :
    r.allowsGeneration = true ↔ Harmless (r.issues.map Issue.complaint) := by
  rw [← Bool.not_eq_false, Report.allowsGeneration_eq_false_iff]
  simp [Harmless, Issue.severity]

/-- A report without errors is a warning if some issue is one, and a success otherwise. -/
theorem status_of_harmless {r : Report} (h : Harmless (r.issues.map Issue.complaint)) :
    (r.status = .warning ↔ Warns (r.issues.map Issue.complaint)) ∧
      (r.status = .success ↔ ¬ Warns (r.issues.map Issue.complaint)) := by
  have hany : r.issues.any (·.severity == .error) = false := by
    simpa [Harmless, Issue.severity] using h
  unfold Report.status Status.ofIssues
  rw [hany]
  cases hi : r.issues with
  | nil => simp [Warns]
  | cons i is =>
    have hw : Warns ((i :: is).map Issue.complaint) :=
      ⟨i.complaint, by simp, severity_eq_warning_iff.mpr (h _ (by simp [hi]))⟩
    simp only [hw, List.isEmpty_cons]
    simp

/-- A report has the issues that the check found, and all pins could be read. -/
theorem report_eq_ok {r : Report} (h : report b cs = .ok r) :
    checkFrom b [] cs = .ok r.issues ∧ ∀ c ∈ cs, Pin.readAll c.pins = .ok c.pinList := by
  simp only [report, bind_eq_ok_iff, pure_eq_ok_iff, pinCounts, allPins, map_eq_ok_iff] at h
  obtain ⟨found, hf, counts, ⟨pins, ⟨pss, hp, -⟩, -⟩, rfl⟩ := h
  refine ⟨hf, fun c hc => ?_⟩
  obtain ⟨ps, -, hps⟩ := exists_ok_of_mapM hp hc
  rw [Component.pinList_of_ok hps, hps]

/-- Generation is allowed exactly if all kinds are known, every component names as many pins as its
kind needs, all pins are on the board, and none is named twice. A report that allows generation
warns exactly if some pin that should modulate pulse widths is a number that cannot. -/
theorem gate_iff_fits {r : Report} (h : report b cs = .ok r) :
    (∀ c ∈ cs, Pin.readAll c.pins = .ok c.pinList) ∧
      (r.allowsGeneration = true ↔ Fits b cs) ∧
      (r.allowsGeneration = true →
        (r.status = .warning ↔ ∃ c ∈ cs, Unmodulated b c) ∧
        (r.status = .success ↔ ¬ ∃ c ∈ cs, Unmodulated b c)) := by
  obtain ⟨hc, hp⟩ := report_eq_ok h
  have gate : r.allowsGeneration = true ↔ Fits b cs := by
    simp [allowsGeneration_iff, checkFrom_harmless_iff hc]
  refine ⟨hp, gate, fun ha => ?_⟩
  rw [← checkFrom_warns_iff hc (gate.mp ha)]
  exact status_of_harmless (allowsGeneration_iff.mp ha)

/-- A servo on a pin without pulse widths next to a custom part: allowed, with a warning. -/
theorem gate_iff_fits_servo :
    let cs : List Component := [⟨"1", .known "servo", "7", none⟩,
      ⟨"2", .custom ⟨"Relay", 2, [.digital], [], "Custom"⟩, "in:8, out:A0", none⟩]
    report .uno cs = .ok ⟨[⟨"1", .notPwm (.number 7) .uno⟩], 2, ⟨2, 1⟩⟩ ∧
      Fits .uno cs ∧ ∃ c ∈ cs, Unmodulated .uno c := by
  intro cs
  have h : report .uno cs = .ok ⟨[⟨"1", .notPwm (.number 7) .uno⟩], 2, ⟨2, 1⟩⟩ := by rfl
  obtain ⟨-, gate, status⟩ := gate_iff_fits h
  exact ⟨h, gate.mp (by decide), (status (by decide)).1.mp (by decide)⟩

end Validation

end BlockSketch
