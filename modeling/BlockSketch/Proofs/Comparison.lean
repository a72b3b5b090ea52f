import BlockSketch.Proofs.Reordering
import Mathlib.Data.List.Flatten
import Mathlib.Order.Nat

/-! # Comparison of reports

Statuses are ordered from good to bad, and a report is no worse than another if each of its issues
has an equally grave one there. That is so for a part of the components, whose complaints are among
those of all, and on a board that offers more, where a complaint stays or a missing pin is there
after all.
-/

namespace BlockSketch

/-! ## Order of statuses -/

namespace Status

/-- How far a status is from success. -/
def rank : Status → Nat
  | success => 0
  | warning => 1
  | error => 2

theorem rank_injective : Function.Injective rank := by
  rintro (_ | _ | _) (_ | _ | _) h <;> first | rfl | cases h

instance : PartialOrder Status := PartialOrder.lift rank rank_injective

theorem le_iff {s t : Status} : s ≤ t ↔ s.rank ≤ t.rank := Iff.rfl

theorem le_error (s : Status) : s ≤ error := by cases s <;> simp [le_iff, rank]

theorem success_le (s : Status) : success ≤ s := by simp [le_iff, rank]

variable {found found' : List Issue}

/-- If every issue has an issue of the other list that is at least as grave, the status is no
worse. -/
theorem ofIssues_le
    (h : ∀ i ∈ found, ∃ j ∈ found', i.severity = .error → j.severity = .error) :
    ofIssues found ≤ ofIssues found' := by
  unfold ofIssues
  by_cases he' : found'.any (·.severity == .error) = true
  · rw [if_pos he']
    exact le_error _
  · have he : ¬ found.any (·.severity == .error) = true := by
      simp only [List.any_eq_true, beq_iff_eq] at he' ⊢
      rintro ⟨i, hi, hs⟩
      obtain ⟨j, hj, hij⟩ := h i hi
      exact he' ⟨j, hj, hij hs⟩
    rw [if_neg he, if_neg he']
    cases found with
    | nil => exact success_le _
    | cons i is =>
      obtain ⟨j, hj, -⟩ := h i List.mem_cons_self
      cases found' with
      | nil => cases hj
      | cons => exact le_rfl

end Status

theorem Report.allowsGeneration_of_le {r r' : Report} (h : r'.status ≤ r.status)
    (ha : r.allowsGeneration = true) : r'.allowsGeneration = true := by
  have hr : r.status ≠ .error := by simpa [allowsGeneration] using ha
  have hr' : r'.status ≠ .error := fun he => hr (le_antisymm r.status.le_error (he ▸ h))
  simpa [allowsGeneration] using hr'

/-! ## Fewer components -/

namespace Pin

variable {ps qs : List Pin}

theorem count_le_of_subset (h : ps ⊆ qs) :
    (count ps).digital ≤ (count qs).digital ∧ (count ps).analog ≤ (count qs).analog := by
  have hf (f : Pin → Bool) : (ps.filter f).eraseDups.length ≤ (qs.filter f).eraseDups.length :=
    length_eraseDups_le fun p hp => List.mem_eraseDups.mpr (List.filter_subset f h hp)
  exact ⟨hf _, hf _⟩

end Pin

namespace Validation

variable {b b' : Board} {c : Component} {cs cs' : List Component} {taken taken' : List Pin}
  {types : List PinType} {p : Pin} {ps : List Pin} {found found' : List Issue} {r : Report}

section

variable {α β : Type} {xs ys : List α}

theorem subperm_map (h : xs.Subperm ys) (f : α → β) : (xs.map f).Subperm (ys.map f) := by
  obtain ⟨zs, hp, hs⟩ := h
  exact ⟨zs.map f, hp.map f, hs.map f⟩

theorem subperm_flatMap (h : xs.Subperm ys) (f : α → List β) :
    (xs.flatMap f).Subperm (ys.flatMap f) := by
  obtain ⟨zs, hp, hs⟩ := h
  exact ⟨zs.flatMap f, hp.flatMap_right f, hs.flatMap f⟩

end

/-- A pin that fewer components claim is in use already less often. -/
theorem subperm_reused (hs : cs'.Subperm cs) (h : checkFrom b taken cs = .ok found)
    (h' : checkFrom b taken cs' = .ok found') :
    (found'.filterMap Issue.reused?).Subperm (found.filterMap Issue.reused?) := by
  rw [List.subperm_ext_iff]
  intro q _
  rw [count_checkFrom h, count_checkFrom h']
  exact Nat.sub_le_sub_right ((subperm_flatMap hs (claims b)).count_le q) _

/-- The complaints about some of the components are among the complaints about all. Which component
is blamed for a pin in use can differ. -/
theorem subperm_complaints (hs : cs'.Subperm cs) (h : checkFrom b taken cs = .ok found)
    (h' : checkFrom b taken cs' = .ok found') :
    (found'.map Issue.complaint).Subperm (found.map Issue.complaint) := by
  have own : (found'.filter (·.reused?.isNone)).Subperm (found.filter (·.reused?.isNone)) := by
    rw [filter_checkFrom h, filter_checkFrom h']
    exact subperm_flatMap hs (ownIssues b)
  have parts := (subperm_map (subperm_reused hs h h') Complaint.reused).append
    (subperm_map own Issue.complaint)
  exact ((perm_reused_append_filter found').subperm.trans parts).trans
    (perm_reused_append_filter found).symm.subperm

/-- Without some of its components, in whatever order the others are declared, a project has no
worse a status: the complaints are among those about all components, no more pins are counted, and
what could be generated still can. -/
theorem report_subperm (hs : cs'.Subperm cs) (h : report b cs = .ok r) :
    ∃ r', report b cs' = .ok r' ∧ r'.status ≤ r.status ∧
      r'.pins.digital ≤ r.pins.digital ∧ r'.pins.analog ≤ r.pins.analog ∧
      (r.allowsGeneration = true → r'.allowsGeneration = true) ∧
      (r'.status = .error → r.status = .error) ∧
      (r'.issues.map Issue.complaint).Subperm (r.issues.map Issue.complaint) := by
  obtain ⟨hr, hf, -, hc⟩ := report_eq_ok_iff.mp h
  obtain ⟨r', h'⟩ := exists_report_iff.mpr fun c hm => hr c (hs.subset hm)
  obtain ⟨-, hf', -, hc'⟩ := report_eq_ok_iff.mp h'
  have complaints := subperm_complaints hs hf hf'
  have status : r'.status ≤ r.status := by
    refine Status.ofIssues_le fun i hi => ?_
    obtain ⟨j, hj, he⟩ := List.mem_map.mp (complaints.subset (List.mem_map_of_mem hi))
    exact ⟨j, hj, fun hs => by rwa [Issue.severity, he]⟩
  have pins := Pin.count_le_of_subset (subperm_flatMap hs Component.pinList).subset
  rw [← hc, ← hc'] at pins
  exact ⟨r', h', status, pins.1, pins.2, Report.allowsGeneration_of_le status,
    fun he => le_antisymm r.status.le_error (he ▸ status), complaints⟩

/-- Of three parts on one pin, the first is removed and the others change places: one of the two
complaints is left. -/
theorem report_subperm_shared :
    report .uno [⟨"1", .known "led", "9", none⟩, ⟨"2", .known "servo", "9", none⟩,
        ⟨"3", .known "button", "9", none⟩] =
      .ok ⟨[⟨"2", .reused (.number 9)⟩, ⟨"3", .reused (.number 9)⟩], 3, ⟨1, 0⟩⟩ ∧
    ∃ r', report .uno [⟨"3", .known "button", "9", none⟩, ⟨"2", .known "servo", "9", none⟩] =
        .ok r' ∧
      r'.issues = [⟨"2", .reused (.number 9)⟩] ∧ r'.status ≤ .error ∧ r'.pins.digital ≤ 1 ∧
      r'.pins.analog ≤ 0 := by
  have h : report .uno [⟨"1", .known "led", "9", none⟩, ⟨"2", .known "servo", "9", none⟩,
      ⟨"3", .known "button", "9", none⟩] =
    .ok ⟨[⟨"2", .reused (.number 9)⟩, ⟨"3", .reused (.number 9)⟩], 3, ⟨1, 0⟩⟩ := by rfl
  obtain ⟨r', h', status, digital, analog, -⟩ :=
    report_subperm ⟨_, .swap _ _ [], List.sublist_cons_self _ _⟩ h
  have hr : r' = ⟨[⟨"2", .reused (.number 9)⟩], 2, ⟨1, 0⟩⟩ := Except.ok.inj h'.symm
  exact ⟨h, r', h', by rw [hr], status, digital, analog⟩

/-! ## Larger boards -/

/-- All that a board offers, the other one offers as well. -/
structure Within (b b' : Board) : Prop where
  digital : b.profile.digitalPins ⊆ b'.profile.digitalPins
  analog : b.profile.analogPins ⊆ b'.profile.analogPins
  pwm : b.profile.pwmPins ⊆ b'.profile.pwmPins

theorem uno_within (b : Board) : Within .uno b := by
  cases b <;> exact ⟨by decide, by decide, by decide⟩

theorem Within.onBoard (hw : Within b b') (h : OnBoard b p) : OnBoard b' p := by
  cases p with
  | number n =>
    obtain ⟨d, hd, rfl⟩ := h
    exact ⟨d, hw.digital hd, rfl⟩
  | name s => exact hw.analog h

/-- What a complaint about a board can become on a board that offers more. A pin that was missing can
be missing still, be there without pulse widths, or be there and in use. -/
inductive Becomes (b b' : Board) : Complaint → Complaint → Prop where
  | unknownKind (kind : String) : Becomes b b' (.unknownKind kind) (.unknownKind kind)
  | pinCount (spec : Spec) (given : Nat) : Becomes b b' (.pinCount spec given) (.pinCount spec given)
  | notPwm (p : Pin) : Becomes b b' (.notPwm p b) (.notPwm p b')
  | reused (p : Pin) : Becomes b b' (.reused p) (.reused p)
  | unavailable (p : Pin) : Becomes b b' (.unavailable p b) (.unavailable p b')
  | unmodulated (p : Pin) : Becomes b b' (.unavailable p b) (.notPwm p b')
  | inUse (p : Pin) : Becomes b b' (.unavailable p b) (.reused p)

theorem Becomes.severity {x y : Complaint} (h : Becomes b b' x y) (hy : y.severity = .error) :
    x.severity = .error := by
  cases h with
  | notPwm p => cases hy
  | _ => rfl

/-- Every complaint of the second list is what one of the first has become. -/
def AllBecome (b b' : Board) (xs ys : List Complaint) : Prop := ∀ y ∈ ys, ∃ x ∈ xs, Becomes b b' x y

theorem AllBecome.append {xs xs' ys ys' : List Complaint} (h : AllBecome b b' xs ys)
    (h' : AllBecome b b' xs' ys') : AllBecome b b' (xs ++ xs') (ys ++ ys') := by
  intro y hy
  rcases List.mem_append.mp hy with hy | hy
  · obtain ⟨x, hx, hb⟩ := h y hy
    exact ⟨x, List.mem_append_left _ hx, hb⟩
  · obtain ⟨x, hx, hb⟩ := h' y hy
    exact ⟨x, List.mem_append_right _ hx, hb⟩

/-- Of the pins of the smaller board, none is taken on the larger one alone. -/
def Agree (b : Board) (taken taken' : List Pin) : Prop :=
  ∀ p, OnBoard b p → p ∈ taken' → p ∈ taken

theorem allBecome_modulation {type : Option PinType} (hw : Within b b') :
    AllBecome b b' (modulation b type p) (modulation b' type p) := by
  intro y hy
  unfold modulation at hy ⊢
  split at hy
  · next hm =>
    obtain rfl := List.mem_singleton.mp hy
    have hn : (type = some .pwm && p.isNumber && !b.hasPwm p) = true := by
      simp only [Bool.and_eq_true, Bool.not_eq_true'] at hm ⊢
      refine ⟨hm.1, ?_⟩
      cases p with
      | number n =>
        simp only [Board.hasPwm, List.any_eq_false] at hm ⊢
        exact fun d hd => hm.2 d (hw.pwm hd)
      | name s => rfl
    rw [if_pos hn]
    exact ⟨_, List.mem_singleton.mpr rfl, .notPwm p⟩
  · cases hy

theorem allBecome_reuse (ha : Agree b taken taken') (hp : OnBoard b p) :
    AllBecome b b' (reuse taken p) (reuse taken' p) := by
  intro y hy
  unfold reuse at hy ⊢
  split at hy
  · next ht =>
    obtain rfl := List.mem_singleton.mp hy
    rw [if_pos (ha p hp ht)]
    exact ⟨_, List.mem_singleton.mpr rfl, .reused p⟩
  · cases hy

/-- A pin that only the larger board has is complained about as missing on the other. -/
theorem allBecome_unavailable {type : Option PinType} :
    AllBecome b b' [.unavailable p b] (modulation b' type p ++ reuse taken' p) := by
  intro y hy
  refine ⟨_, List.mem_singleton.mpr rfl, ?_⟩
  rcases List.mem_append.mp hy with hy | hy
  · unfold modulation at hy
    split at hy
    · obtain rfl := List.mem_singleton.mp hy
      exact .unmodulated p
    · cases hy
  · unfold reuse at hy
    split at hy
    · obtain rfl := List.mem_singleton.mp hy
      exact .inUse p
    · cases hy

theorem ite_mem_eq_insert : (if p ∈ ps then ps else p :: ps) = ps.insert p := by
  split
  · next h => exact (List.insert_of_mem h).symm
  · next h => exact (List.insert_of_not_mem h).symm

theorem Agree.take (ha : Agree b taken taken') (p : Pin) : Agree b
    (if p ∈ taken then taken else p :: taken) (if p ∈ taken' then taken' else p :: taken') := by
  intro q hq ht
  rw [ite_mem_eq_insert, List.mem_insert_iff] at ht ⊢
  exact ht.imp_right (ha q hq)

theorem Agree.take_right (ha : Agree b taken taken') (hp : ¬ OnBoard b p) :
    Agree b taken (if p ∈ taken' then taken' else p :: taken') := by
  intro q hq ht
  rw [ite_mem_eq_insert, List.mem_insert_iff] at ht
  rcases ht with rfl | ht
  · exact absurd hq hp
  · exact ha q hq ht

theorem allBecome_checkPins (hw : Within b b') (ha : Agree b taken taken') :
    AllBecome b b' (checkPins b taken types ps).1 (checkPins b' taken' types ps).1 := by
  induction ps generalizing taken taken' types with
  | nil =>
    intro y hy
    cases hy
  | cons p ps ih =>
    by_cases hp : OnBoard b p
    · rw [checkPins_cons_of_onBoard hp, checkPins_cons_of_onBoard (hw.onBoard hp)]
      exact ((allBecome_modulation hw).append (allBecome_reuse ha hp)).append (ih (ha.take p))
    · rw [checkPins_cons_of_not_onBoard hp]
      by_cases hp' : OnBoard b' p
      · rw [checkPins_cons_of_onBoard hp']
        exact allBecome_unavailable.append (ih (ha.take_right hp))
      · rw [checkPins_cons_of_not_onBoard hp']
        intro y hy
        rcases List.mem_cons.mp hy with rfl | hy
        · exact ⟨_, List.mem_cons_self, .unavailable p⟩
        · obtain ⟨x, hx, hb⟩ := ih ha y hy
          exact ⟨x, List.mem_cons_of_mem _ hx, hb⟩

theorem Agree.checkPins (ha : Agree b taken taken') : Agree b
    (checkPins b taken types ps).2 (checkPins b' taken' types ps).2 := by
  intro q hq ht
  rw [mem_checkPins_taken_iff] at ht ⊢
  exact ht.imp (ha q hq) fun h => ⟨h.1, hq⟩

/-- The complaints about one component, and the pins that are taken afterwards. -/
def checkOne (b : Board) (taken : List Pin) (c : Component) : List Complaint × List Pin :=
  match c.spec? with
  | none => ([.unknownKind c.kindName], taken)
  | some spec =>
    if (c.pinList.length : Int) = spec.pinCount then checkPins b taken spec.pinTypes c.pinList
    else ([.pinCount spec c.pinList.length], taken)

/-- The first component is checked, and then the others with what it has taken. -/
theorem checkFrom_cons_eq (h : checkFrom b taken (c :: cs) = .ok found) :
    ∃ rest, checkFrom b (checkOne b taken c).2 cs = .ok rest ∧
      found = (checkOne b taken c).1.map (⟨c.id, ·⟩) ++ rest := by
  rcases checkFrom_cons h with ⟨hs, rest, hr, rfl⟩ | ⟨spec, hs, hl, rest, hr, rfl⟩ |
    ⟨spec, hs, hl, rest, hr, rfl⟩
  · simp only [checkOne, hs]
    exact ⟨rest, hr, rfl⟩
  · simp only [checkOne, hs, if_neg hl]
    exact ⟨rest, hr, rfl⟩
  · simp only [checkOne, hs, if_pos hl]
    exact ⟨rest, hr, rfl⟩

theorem allBecome_checkOne (hw : Within b b') (ha : Agree b taken taken') :
    AllBecome b b' (checkOne b taken c).1 (checkOne b' taken' c).1 := by
  unfold checkOne
  cases c.spec? with
  | none =>
    intro y hy
    obtain rfl := List.mem_singleton.mp hy
    exact ⟨_, List.mem_singleton.mpr rfl, .unknownKind _⟩
  | some spec =>
    dsimp only
    split
    · exact allBecome_checkPins hw ha
    · intro y hy
      obtain rfl := List.mem_singleton.mp hy
      exact ⟨_, List.mem_singleton.mpr rfl, .pinCount _ _⟩

theorem Agree.checkOne (ha : Agree b taken taken') : Agree b
    (checkOne b taken c).2 (checkOne b' taken' c).2 := by
  unfold Validation.checkOne
  cases c.spec? with
  | none => exact ha
  | some spec =>
    dsimp only
    split
    · exact ha.checkPins
    · exact ha

/-- Every issue on the larger board is what an issue of the same component has become. -/
theorem becomes_of_checkFrom (hw : Within b b') (ha : Agree b taken taken')
    (h : checkFrom b taken cs = .ok found) (h' : checkFrom b' taken' cs = .ok found') :
    ∀ i' ∈ found', ∃ i ∈ found, i.component = i'.component ∧
      Becomes b b' i.complaint i'.complaint := by
  -- The two runs carry different pins, which agree as far as the smaller board has them.
  induction cs generalizing taken taken' found found' with
  | nil =>
    obtain rfl := Except.ok.inj h'
    nofun
  | cons c cs ih =>
    obtain ⟨rest, hr, rfl⟩ := checkFrom_cons_eq h
    obtain ⟨rest', hr', rfl⟩ := checkFrom_cons_eq h'
    intro i' hi'
    rcases List.mem_append.mp hi' with hi' | hi'
    · obtain ⟨y, hy, rfl⟩ := List.mem_map.mp hi'
      obtain ⟨x, hx, hb⟩ := allBecome_checkOne hw ha y hy
      exact ⟨⟨c.id, x⟩, List.mem_append_left _ (List.mem_map_of_mem hx), rfl, hb⟩
    · obtain ⟨i, hi, hb⟩ := ih ha.checkOne hr hr' i' hi'
      exact ⟨i, List.mem_append_right _ hi, hb⟩

/-- Where pins were all that was missing, the larger board can have a warning and a pin in use. -/
theorem exists_missing_pins (hb : b ≠ .uno) : ∃ cs r r', report .uno cs = .ok r ∧
    report b cs = .ok r' ∧ (∀ i ∈ r.issues, ∃ p, i.complaint = .unavailable p .uno) ∧
    (∃ i ∈ r'.issues, ∃ p, i.complaint = .notPwm p b) ∧
    ∃ i ∈ r'.issues, ∃ p, i.complaint = .reused p := by
  have uno : report .uno [⟨"1", .known "servo", "20", none⟩, ⟨"2", .known "servo", "20", none⟩] =
    .ok ⟨[⟨"1", .unavailable (.number 20) .uno⟩, ⟨"2", .unavailable (.number 20) .uno⟩], 2,
      ⟨1, 0⟩⟩ := by rfl
  have other : report b [⟨"1", .known "servo", "20", none⟩, ⟨"2", .known "servo", "20", none⟩] =
      .ok ⟨[⟨"1", .notPwm (.number 20) b⟩, ⟨"2", .notPwm (.number 20) b⟩,
        ⟨"2", .reused (.number 20)⟩], 2, ⟨1, 0⟩⟩ := by
    cases b with
    | uno => exact absurd rfl hb
    | mega => rfl
    | esp32 => rfl
  exact ⟨_, _, _, uno, other, by simp, by simp, by simp⟩

/-- A project that is moved from the smallest board to another one has no worse a status there, so it
can still be generated. Every issue is what an issue of the same component has become: a missing pin
may be there, but without pulse widths or in use. -/
theorem report_uno_moved (b : Board) (h : report .uno cs = .ok r) :
    (∃ r', report b cs = .ok r' ∧ r'.status ≤ r.status ∧
      (r.allowsGeneration = true → r'.allowsGeneration = true) ∧
      ∀ i' ∈ r'.issues, ∃ i ∈ r.issues, i.component = i'.component ∧
        Becomes .uno b i.complaint i'.complaint) ∧
    (b ≠ .uno → ∃ cs r r', report .uno cs = .ok r ∧ report b cs = .ok r' ∧
      (∀ i ∈ r.issues, ∃ p, i.complaint = .unavailable p .uno) ∧
      (∃ i ∈ r'.issues, ∃ p, i.complaint = .notPwm p b) ∧
      ∃ i ∈ r'.issues, ∃ p, i.complaint = .reused p) := by
  obtain ⟨hr, hf, -, -⟩ := report_eq_ok_iff.mp h
  obtain ⟨r', h'⟩ := exists_report_iff.mpr hr
  obtain ⟨-, hf', -, -⟩ := report_eq_ok_iff.mp h'
  have becomes := becomes_of_checkFrom (uno_within b) (fun _ _ ht => ht) hf hf'
  have status : r'.status ≤ r.status := by
    refine Status.ofIssues_le fun i' hi' => ?_
    obtain ⟨i, hi, -, hb⟩ := becomes i' hi'
    exact ⟨i, hi, hb.severity⟩
  exact ⟨⟨r', h', status, Report.allowsGeneration_of_le status, becomes⟩, exists_missing_pins⟩

/-- On the larger board one servo gets its pulse widths, the other one at least its pin, and the button
its analog pin: of three issues a warning is left. -/
theorem report_uno_moved_servos :
    report .uno [⟨"1", .known "servo", "7", none⟩, ⟨"2", .known "servo", "20", none⟩,
        ⟨"3", .known "button", "A7", none⟩] =
      .ok ⟨[⟨"1", .notPwm (.number 7) .uno⟩, ⟨"2", .unavailable (.number 20) .uno⟩,
        ⟨"3", .unavailable (.name "A7") .uno⟩], 3, ⟨2, 1⟩⟩ ∧
    ∃ r', report .mega [⟨"1", .known "servo", "7", none⟩, ⟨"2", .known "servo", "20", none⟩,
        ⟨"3", .known "button", "A7", none⟩] = .ok r' ∧
      r'.issues = [⟨"2", .notPwm (.number 20) .mega⟩] ∧ r'.status ≤ .error ∧
      ∃ i ∈ [(⟨"1", .notPwm (.number 7) .uno⟩ : Issue), ⟨"2", .unavailable (.number 20) .uno⟩,
          ⟨"3", .unavailable (.name "A7") .uno⟩],
        i.component = "2" ∧ Becomes .uno .mega i.complaint (.notPwm (.number 20) .mega) := by
  have h : report .uno [⟨"1", .known "servo", "7", none⟩, ⟨"2", .known "servo", "20", none⟩,
      ⟨"3", .known "button", "A7", none⟩] =
    .ok ⟨[⟨"1", .notPwm (.number 7) .uno⟩, ⟨"2", .unavailable (.number 20) .uno⟩,
      ⟨"3", .unavailable (.name "A7") .uno⟩], 3, ⟨2, 1⟩⟩ := by rfl
  obtain ⟨⟨r', h', status, -, becomes⟩, -⟩ := report_uno_moved .mega h
  have hr : r' = ⟨[⟨"2", .notPwm (.number 20) .mega⟩], 3, ⟨2, 1⟩⟩ := Except.ok.inj h'.symm
  have hi : r'.issues = [⟨"2", .notPwm (.number 20) .mega⟩] := by rw [hr]
  exact ⟨h, r', h', hi, status, becomes ⟨"2", .notPwm (.number 20) .mega⟩ (by simp [hi])⟩

end Validation

end BlockSketch
