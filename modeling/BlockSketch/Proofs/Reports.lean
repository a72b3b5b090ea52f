import BlockSketch.Proofs.Gate
import Mathlib.Data.List.Perm.Subperm

/-! # Contents of reports

A report can be made exactly if the pins of all components can be read. It holds the issues that the
check finds and counts each pin once.
-/

namespace BlockSketch

/-! ## Different elements -/

section

variable {α : Type} [BEq α] [LawfulBEq α] {xs ys : List α}

theorem nodup_eraseDups (xs : List α) : xs.eraseDups.Nodup := by
  induction hn : xs.length using Nat.strongRecOn generalizing xs with
  | ind n ih =>
    cases xs with
    | nil => simp
    | cons x xs =>
      subst hn
      rw [List.eraseDups_cons, List.nodup_cons]
      refine ⟨by simp, ih _ ?_ _ rfl⟩
      exact Nat.lt_succ_of_le (List.length_filter_le _ xs)

theorem eraseDups_of_nodup (h : xs.Nodup) : xs.eraseDups = xs := by
  induction xs with
  | nil => rfl
  | cons x xs ih =>
    obtain ⟨hx, hxs⟩ := List.nodup_cons.mp h
    have hf : xs.filter (fun y => !y == x) = xs := by
      refine List.filter_eq_self.mpr fun y hy => ?_
      simp [ne_of_mem_of_not_mem hy hx]
    rw [List.eraseDups_cons, hf, ih hxs]

theorem length_eraseDups_le (h : xs ⊆ ys) : xs.eraseDups.length ≤ ys.length :=
  (List.subperm_of_subset (nodup_eraseDups xs) fun _ hx => h (List.mem_eraseDups.mp hx)).length_le

theorem length_eraseDups_of_perm (h : xs.Perm ys) : xs.eraseDups.length = ys.eraseDups.length := by
  refine ((List.perm_ext_iff_of_nodup (nodup_eraseDups xs) (nodup_eraseDups ys)).mpr ?_).length_eq
  simp [h.mem_iff]

end

namespace Pin

variable {ps qs : List Pin}

theorem count_of_perm (h : ps.Perm qs) : count ps = count qs := by
  rw [count, count, length_eraseDups_of_perm (h.filter _), length_eraseDups_of_perm (h.filter _)]

/-- Pins that are all different are all counted. -/
theorem count_of_nodup (h : ps.Nodup) : (count ps).digital + (count ps).analog = ps.length := by
  rw [count, eraseDups_of_nodup (h.filter _), eraseDups_of_nodup (h.filter _),
    ← List.length_eq_length_filter_add]

end Pin

/-! ## Reports that can be made -/

namespace Validation

variable {b : Board} {c : Component} {cs : List Component} {taken ps : List Pin}

/-- The pins of the component can be read. -/
def Readable (c : Component) : Prop := Pin.readAll c.pins = .ok c.pinList

theorem readable_of_ok (h : Pin.readAll c.pins = .ok ps) : Readable c := by
  rw [Readable, Component.pinList_of_ok h, h]

theorem mapM_readAll_of_readable (h : ∀ c ∈ cs, Readable c) :
    (cs.mapM fun c => Pin.readAll c.pins) = .ok (cs.map Component.pinList) := by
  rw [mapM_eq_ok_iff, List.forall₂_map_right_iff, List.forall₂_same]
  exact h

theorem allPins_eq_ok_iff :
    allPins cs = .ok ps ↔ (∀ c ∈ cs, Readable c) ∧ cs.flatMap Component.pinList = ps := by
  constructor
  · intro h
    obtain ⟨pss, hp, rfl⟩ := map_eq_ok_iff.mp h
    have hr : ∀ c ∈ cs, Readable c := fun c hc =>
      have ⟨_, _, hps⟩ := exists_ok_of_mapM hp hc
      readable_of_ok hps
    obtain rfl := Except.ok.inj ((mapM_readAll_of_readable hr).symm.trans hp)
    exact ⟨hr, List.flatMap_def⟩
  · rintro ⟨hr, rfl⟩
    rw [allPins, mapM_readAll_of_readable hr, List.flatMap_def]
    rfl

theorem checkFrom_of_readable (b : Board) (taken : List Pin) (h : ∀ c ∈ cs, Readable c) :
    ∃ found, checkFrom b taken cs = .ok found := by
  induction cs generalizing taken with
  | nil => exact ⟨[], rfl⟩
  | cons c cs ih =>
    obtain ⟨hc, hcs⟩ := List.forall_mem_cons.mp h
    rw [checkFrom]
    cases c.spec? with
    | none =>
      obtain ⟨rest, hr⟩ := ih taken hcs
      exact ⟨_, bind_eq_ok_iff.mpr ⟨rest, hr, rfl⟩⟩
    | some spec =>
      rw [Readable] at hc
      simp only [hc, bind_eq_ok_iff, Except.ok.injEq, exists_eq_left']
      split
      · obtain ⟨rest, hr⟩ := ih taken hcs
        exact ⟨_, bind_eq_ok_iff.mpr ⟨rest, hr, rfl⟩⟩
      · obtain ⟨rest, hr⟩ := ih (checkPins b taken spec.pinTypes c.pinList).2 hcs
        exact ⟨_, bind_eq_ok_iff.mpr ⟨rest, hr, rfl⟩⟩

/-- A report can be made exactly if all pins can be read. -/
theorem report_eq_ok_iff {r : Report} : report b cs = .ok r ↔
    (∀ c ∈ cs, Readable c) ∧ checkFrom b [] cs = .ok r.issues ∧ r.componentCount = cs.length ∧
      r.pins = Pin.count (cs.flatMap Component.pinList) := by
  simp only [report, issues, pinCounts, bind_eq_ok_iff, pure_eq_ok_iff, map_eq_ok_iff,
    allPins_eq_ok_iff]
  constructor
  · rintro ⟨found, hf, counts, ⟨pins, ⟨hr, rfl⟩, rfl⟩, rfl⟩
    exact ⟨hr, hf, rfl, rfl⟩
  · rintro ⟨hr, hf, hn, hp⟩
    exact ⟨_, hf, _, ⟨_, ⟨hr, rfl⟩, rfl⟩, by rw [← hn, ← hp]⟩

/-- Components whose report has no error fit on the board. -/
theorem fits_of_report {r : Report} (h : report b cs = .ok r) (hs : r.status ≠ .error) :
    Fits b cs := by
  obtain ⟨-, hf, -, -⟩ := report_eq_ok_iff.mp h
  refine ((checkFrom_harmless_iff hf).mp (allowsGeneration_iff.mp ?_)).1
  simpa [Report.allowsGeneration] using hs

theorem exists_report_iff : (∃ r, report b cs = .ok r) ↔ ∀ c ∈ cs, Readable c := by
  constructor
  · rintro ⟨r, h⟩
    exact (report_eq_ok_iff.mp h).1
  · intro hr
    obtain ⟨found, hf⟩ := checkFrom_of_readable b [] hr
    exact ⟨⟨found, cs.length, _⟩, report_eq_ok_iff.mpr ⟨hr, hf, rfl, rfl⟩⟩

end Validation

end BlockSketch
