import BlockSketch.Proofs.Reports
import Mathlib.Data.List.Perm.Basic

/-! # Order of declaration

A pin that several components claim is reported at all of them but the first, so it depends on the
order of the components which of them are blamed. How often the pin is reported does not, and all
other issues concern a component by itself.
-/

namespace BlockSketch

/-- The pin that is in use already, if that is the complaint. -/
def Complaint.reused? : Complaint → Option Pin
  | .reused p => some p
  | _ => none

namespace Issue

/-- The pin that is in use already, if that is the issue. -/
def reused? (i : Issue) : Option Pin := i.complaint.reused?

/-- What an issue says, apart from the component that it blames. -/
def notice (i : Issue) : Severity × String × String × Option String :=
  (i.severity, i.complaint.message, i.complaint.suggestion, i.complaint.pin?.map Pin.shown)

end Issue

namespace Validation

variable {b : Board} {c : Component} {cs cs' : List Component} {taken : List Pin}
  {types : List PinType} {p q : Pin} {ps : List Pin} {found : List Issue}

/-! ## One component -/

/-- The complaints that do not depend on the pins that are taken. -/
def lasting (xs : List Complaint) : List Complaint := xs.filter (·.reused?.isNone)

theorem reused?_of_mem_modulation {type : Option PinType} {x : Complaint}
    (h : x ∈ modulation b type p) : x.reused? = none := by
  unfold modulation at h
  split at h
  · obtain rfl := List.mem_singleton.mp h
    rfl
  · cases h

theorem lasting_reuse : lasting (reuse taken p) = [] := by
  unfold reuse
  split <;> rfl

theorem filterMap_reuse :
    (reuse taken p).filterMap (·.reused?) = if p ∈ taken then [p] else [] := by
  unfold reuse
  split <;> rfl

theorem lasting_checkPins (taken' : List Pin) :
    lasting (checkPins b taken types ps).1 = lasting (checkPins b taken' types ps).1 := by
  induction ps generalizing taken taken' types with
  | nil => rfl
  | cons p ps ih =>
    by_cases hp : OnBoard b p
    · rw [checkPins_cons_of_onBoard hp, checkPins_cons_of_onBoard hp]
      simp only [lasting, List.filter_append] at ih ⊢
      have hreuse (t : List Pin) : (reuse t p).filter (·.reused?.isNone) = [] := lasting_reuse
      rw [hreuse, hreuse, ih]
    · rw [checkPins_cons_of_not_onBoard hp, checkPins_cons_of_not_onBoard hp]
      simp only [lasting, List.filter_cons] at ih ⊢
      rw [ih]

/-- A pin on the board is reported each time that it comes up, except for the first time if it was
free before. -/
theorem count_checkPins : ((checkPins b taken types ps).1.filterMap (·.reused?)).count q =
    (ps.filter b.has).count q - if q ∈ taken then 0 else 1 := by
  induction ps generalizing taken types with
  | nil => simp [checkPins]
  | cons p ps ih =>
    by_cases hp : OnBoard b p
    · have hm (type : Option PinType) : (modulation b type p).filterMap (·.reused?) = [] :=
        List.filterMap_eq_nil_iff.mpr fun _ hx => reused?_of_mem_modulation hx
      rw [checkPins_cons_of_onBoard hp, List.filterMap_append, List.filterMap_append, hm,
        List.nil_append, filterMap_reuse, List.count_append, ih,
        List.filter_cons_of_pos (has_iff.mpr hp), List.count_cons]
      by_cases ht : p ∈ taken
      · by_cases hq : p = q
        · subst hq
          simp [ht, Nat.add_comm]
        · simp [ht, hq]
      · by_cases hq : p = q
        · subst hq
          simp [ht]
        · simp [ht, hq, Ne.symm hq]
    · have hn : ¬ b.has p = true := fun h => hp (has_iff.mp h)
      rw [checkPins_cons_of_not_onBoard hp, List.filterMap_cons_none rfl, ih,
        List.filter_cons_of_neg hn]

/-! ## All components -/

/-- The issues of a component that concern it alone. -/
def ownIssues (b : Board) (c : Component) : List Issue :=
  match c.spec? with
  | none => [⟨c.id, .unknownKind c.kindName⟩]
  | some spec =>
    if (c.pinList.length : Int) = spec.pinCount then
      (lasting (checkPins b [] spec.pinTypes c.pinList).1).map (⟨c.id, ·⟩)
    else [⟨c.id, .pinCount spec c.pinList.length⟩]

/-- The pins that a component claims: those on the board, if it has as many pins as it needs. -/
def claims (b : Board) (c : Component) : List Pin :=
  match c.spec? with
  | none => []
  | some spec =>
    if (c.pinList.length : Int) = spec.pinCount then c.pinList.filter b.has else []

theorem filter_checkFrom (h : checkFrom b taken cs = .ok found) :
    found.filter (·.reused?.isNone) = cs.flatMap (ownIssues b) := by
  induction cs generalizing taken found with
  | nil =>
    obtain rfl := Except.ok.inj h
    rfl
  | cons c cs ih =>
    rw [List.flatMap_cons, ownIssues]
    rcases checkFrom_cons h with ⟨hs, rest, hr, rfl⟩ | ⟨spec, hs, hl, rest, hr, rfl⟩ |
      ⟨spec, hs, hl, rest, hr, rfl⟩
    · simp only [hs]
      rw [← ih hr]
      rfl
    · simp only [hs, if_neg hl]
      rw [← ih hr]
      rfl
    · simp only [hs, if_pos hl]
      rw [← ih hr, lasting_checkPins taken, List.filter_append, List.filter_map]
      rfl

/-- A pin is reported as in use once less than it is claimed, or each time if it was taken before. -/
theorem count_checkFrom (h : checkFrom b taken cs = .ok found) :
    (found.filterMap Issue.reused?).count q =
      (cs.flatMap (claims b)).count q - if q ∈ taken then 0 else 1 := by
  induction cs generalizing taken found with
  | nil =>
    obtain rfl := Except.ok.inj h
    simp
  | cons c cs ih =>
    rw [List.flatMap_cons, claims]
    rcases checkFrom_cons h with ⟨hs, rest, hr, rfl⟩ | ⟨spec, hs, hl, rest, hr, rfl⟩ |
      ⟨spec, hs, hl, rest, hr, rfl⟩
    · simp only [hs, List.nil_append]
      rw [← ih hr]
      rfl
    · simp only [hs, if_neg hl, List.nil_append]
      rw [← ih hr]
      rfl
    · simp only [hs, if_pos hl]
      have hm : q ∈ (checkPins b taken spec.pinTypes c.pinList).2 ↔
          q ∈ taken ∨ 0 < (c.pinList.filter b.has).count q := by
        rw [mem_checkPins_taken_iff, List.count_pos_iff, List.mem_filter, has_iff]
      have hmap : (Issue.reused? ∘ (⟨c.id, ·⟩ : Complaint → Issue)) = (·.reused?) := rfl
      rw [List.filterMap_append, List.filterMap_map, hmap, List.count_append, count_checkPins, ih hr,
        List.count_append]
      simp only [hm]
      by_cases ht : q ∈ taken
      · simp [ht]
      · simp only [ht, false_or, if_false]
        split <;> omega

/-! ## Reordered components -/

theorem perm_reused_append_filter (found : List Issue) : (found.map Issue.complaint).Perm
    ((found.filterMap Issue.reused?).map Complaint.reused ++
      (found.filter (·.reused?.isNone)).map Issue.complaint) := by
  induction found with
  | nil => exact .nil
  | cons i found ih =>
    cases hi : i.reused? with
    | none =>
      rw [List.map_cons, List.filterMap_cons_none hi, List.filter_cons_of_pos (by rw [hi]; rfl),
        List.map_cons]
      exact (ih.cons _).trans List.perm_middle.symm
    | some p =>
      obtain ⟨id, x⟩ := i
      obtain rfl : x = .reused p := by cases x <;> simp_all [Issue.reused?, Complaint.reused?]
      rw [List.map_cons, List.filterMap_cons_some hi, List.filter_cons_of_neg (by rw [hi]; nofun)]
      exact ih.cons _

theorem perm_filter_of_perm {found' : List Issue} (hp : cs.Perm cs')
    (h : checkFrom b taken cs = .ok found) (h' : checkFrom b taken cs' = .ok found') :
    (found.filter (·.reused?.isNone)).Perm (found'.filter (·.reused?.isNone)) := by
  rw [filter_checkFrom h, filter_checkFrom h']
  exact hp.flatMap_right _

theorem perm_complaints_of_perm {found' : List Issue} (hp : cs.Perm cs')
    (h : checkFrom b taken cs = .ok found) (h' : checkFrom b taken cs' = .ok found') :
    (found.map Issue.complaint).Perm (found'.map Issue.complaint) := by
  have reused : (found.filterMap Issue.reused?).Perm (found'.filterMap Issue.reused?) := by
    rw [List.perm_iff_count]
    intro q
    rw [count_checkFrom h, count_checkFrom h', (hp.flatMap_right (claims b)).count_eq]
  calc (found.map Issue.complaint).Perm _ := perm_reused_append_filter found
    List.Perm _ _ := (reused.map _).append ((perm_filter_of_perm hp h h').map _)
    List.Perm _ _ := (perm_reused_append_filter found').symm

theorem status_eq_of_perm {found' : List Issue}
    (h : (found.map Issue.complaint).Perm (found'.map Issue.complaint)) :
    Status.ofIssues found = Status.ofIssues found' := by
  have hany : found.any (·.severity == .error) = found'.any (·.severity == .error) := by
    have he := h.any_eq (f := (·.severity == .error))
    rwa [List.any_map, List.any_map] at he
  have hempty : found.isEmpty = found'.isEmpty := by
    have he := h.isEmpty_eq
    rwa [List.isEmpty_map, List.isEmpty_map] at he
  rw [Status.ofIssues, Status.ofIssues, hany, hempty]

/-- The report on a list of components and on a permutation of it agree in everything but the order
of the issues and, where a pin is in use already, the component that is blamed. -/
theorem report_perm {r : Report} (hp : cs.Perm cs') (h : report b cs = .ok r) :
    ∃ r', report b cs' = .ok r' ∧ r'.status = r.status ∧
      r'.componentCount = r.componentCount ∧ r'.pins.digital = r.pins.digital ∧
      r'.pins.analog = r.pins.analog ∧ r'.estimatedBlocks = r.estimatedBlocks ∧
      (r'.issues.map Issue.notice).Perm (r.issues.map Issue.notice) ∧
      (r'.issues.filter (·.reused?.isNone)).Perm (r.issues.filter (·.reused?.isNone)) := by
  obtain ⟨hr, hf, hn, hc⟩ := report_eq_ok_iff.mp h
  obtain ⟨r', h'⟩ := exists_report_iff.mpr fun c hm => hr c (hp.mem_iff.mpr hm)
  obtain ⟨-, hf', hn', hc'⟩ := report_eq_ok_iff.mp h'
  have complaints := perm_complaints_of_perm hp.symm hf' hf
  have counts : r'.componentCount = r.componentCount := by rw [hn, hn', hp.length_eq]
  have pins : r'.pins = r.pins := by
    rw [hc, hc', Pin.count_of_perm (hp.flatMap_right Component.pinList)]
  refine ⟨r', h', status_eq_of_perm complaints, counts, by rw [pins], by rw [pins], ?_, ?_,
    perm_filter_of_perm hp.symm hf' hf⟩
  · rw [Report.estimatedBlocks, Report.estimatedBlocks, counts]
  · have := complaints.map fun x =>
      (x.severity, x.message, x.suggestion, x.pin?.map Pin.shown)
    rwa [List.map_map, List.map_map] at this

/-- Of two parts on one pin the second is blamed, whichever it is. -/
theorem report_perm_shared :
    report .uno [⟨"1", .known "led", "9", none⟩, ⟨"2", .known "servo", "9", none⟩] =
        .ok ⟨[⟨"2", .reused (.number 9)⟩], 2, ⟨1, 0⟩⟩ ∧
      ∃ r', report .uno [⟨"2", .known "servo", "9", none⟩, ⟨"1", .known "led", "9", none⟩] =
          .ok r' ∧
        r'.issues = [⟨"1", .reused (.number 9)⟩] ∧ r'.status = .error ∧
        (r'.issues.map Issue.notice).Perm [(.error, "Pin 9 is used by multiple components",
          "Each pin can only be used by one component", some "9")] := by
  have h : report .uno [⟨"1", .known "led", "9", none⟩, ⟨"2", .known "servo", "9", none⟩] =
      .ok ⟨[⟨"2", .reused (.number 9)⟩], 2, ⟨1, 0⟩⟩ := by rfl
  obtain ⟨r', h', hs, -, -, -, -, hn, -⟩ := report_perm (.swap _ _ []) h
  have hr : r' = ⟨[⟨"1", .reused (.number 9)⟩], 2, ⟨1, 0⟩⟩ := Except.ok.inj h'.symm
  exact ⟨h, r', h', by rw [hr], hs, hn⟩

end Validation

end BlockSketch
