import BlockSketch.Project.Export
import BlockSketch.Proofs.Generation

/-! # Blocked projects

Generation and the export as a sketch are blocked by the same reports, those with an error, and pass
the report on. Nothing else about a project is ever blocked: its report and its actions fail in other
ways, and the sheet and the document are made whatever the report says.
-/

namespace BlockSketch

variable {α β ε : Type} {x : Except Failure α}

/-- The computation is not blocked by a report. -/
def Unblocked (x : Except Failure α) : Prop := ∀ r, x ≠ .error (.blocked r)

namespace Unblocked

theorem ok (a : α) : Unblocked (.ok a : Except Failure α) := by
  intro r h
  cases h

theorem bind {f : α → Except Failure β} (hx : Unblocked x) (hf : ∀ a, Unblocked (f a)) :
    Unblocked (x >>= f) := by
  intro r h
  rcases bind_eq_error_iff.mp h with h | ⟨a, -, h⟩
  · exact hx r h
  · exact hf a r h

theorem mapError {y : Except ε α} {f : ε → Failure} (hf : ∀ e r, f e ≠ .blocked r) :
    Unblocked (y.mapError f) := by
  intro r h
  obtain ⟨e, -, he⟩ := mapError_eq_error_iff.mp h
  exact hf e r he

theorem numeral (y : Except NumeralFault α) : Unblocked (liftM y : Except Failure α) :=
  mapError (by simp)

theorem file (y : Except FileFault α) : Unblocked (liftM y : Except Failure α) :=
  mapError (by simp)

theorem sketch (y : Except SketchFault α) : Unblocked (liftM y : Except Failure α) := by
  refine mapError fun e r => ?_
  cases e <;> simp [Failure.ofSketch]

end Unblocked

namespace Project

variable {p : Project} {r : Report} {now : Instant} {format : ExportFormat}

/-- With a report, the gate decides before the rest of a computation that is not blocked itself. -/
theorem gate_bind_eq_blocked_iff {k : Except Failure α} (hr : p.report = .ok r) (hk : Unblocked k)
    {e : Report} : (p.report >>= fun r => gate r >>= fun _ => k) = .error (.blocked e) ↔
      e = r ∧ r.status = .error := by
  rw [hr]
  change (gate r >>= fun _ => k) = .error (.blocked e) ↔ e = r ∧ r.status = .error
  by_cases hs : r.status = .error
  · have hg : gate r = .error (.blocked r) := if_neg (by simp [Report.allowsGeneration, hs])
    rw [hg, bind_eq_error_iff]
    simp [hs, eq_comm]
  · have hg : gate r = .ok () := if_pos (by simpa [Report.allowsGeneration] using hs)
    rw [hg]
    exact iff_of_false (hk e) fun h => hs h.2

section

variable (hr : p.report = .ok r) {e : Report}
include hr

theorem exportSketch_eq_blocked_iff :
    p.exportSketch now = .error (.blocked e) ↔ e = r ∧ r.status = .error :=
  gate_bind_eq_blocked_iff hr ((Unblocked.numeral _).bind fun _ => .sketch _)

end

end Project

end BlockSketch
