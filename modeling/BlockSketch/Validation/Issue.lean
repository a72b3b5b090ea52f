import BlockSketch.Board
import BlockSketch.Component.Basic

/-!
# Issues

What can be wrong with the declared components of a project, and the report that sums it up.
-/

namespace BlockSketch

/-- How grave an issue is. -/
inductive Severity where
  | error
  | warning
  deriving DecidableEq, Repr

def Severity.id : Severity → String
  | error => "error"
  | warning => "warning"

/-- What is wrong with a component. -/
inductive Complaint where
  | unknownKind (kind : String)
  | pinCount (spec : Spec) (given : Nat)
  | unavailable (pin : Pin) (board : Board)
  | notPwm (pin : Pin) (board : Board)
  | reused (pin : Pin)
  deriving DecidableEq

namespace Complaint

/-- Only a pin that cannot modulate pulse widths is tolerated. -/
def severity : Complaint → Severity
  | notPwm _ _ => .warning
  | _ => .error

def message : Complaint → String
  | unknownKind kind => s!"Unknown component type: {kind}"
  | pinCount spec given => s!"{spec.name} requires {spec.pinCount} pin(s), got {given}"
  | unavailable pin board => s!"Pin {pin.shown} is not available on {board.profile.name}"
  | notPwm pin _ => s!"Pin {pin.shown} is not a PWM pin, component may not work as expected"
  | reused pin => s!"Pin {pin.shown} is used by multiple components"

def pinList (pins : List Nat) : String := ", ".intercalate (pins.map toString)

def suggestion : Complaint → String
  | unknownKind _ => "Please select a supported component type"
  | pinCount spec _ =>
    if spec.labels.isEmpty then s!"Provide exactly {spec.pinCount} pin(s)"
    else s!"Use format: {Spec.labelledPins spec.labels}"
  | unavailable _ board => s!"Available digital pins: {pinList board.profile.digitalPins}"
  | notPwm _ board => s!"Available PWM pins: {pinList board.profile.pwmPins}"
  | reused _ => "Each pin can only be used by one component"

/-- The pin that is at fault, if it is a single one. -/
def pin? : Complaint → Option Pin
  | unavailable pin _ => some pin
  | notPwm pin _ => some pin
  | reused pin => some pin
  | _ => none

end Complaint

/-- A complaint about the component with the given identifier. -/
structure Issue where
  component : String
  complaint : Complaint
  deriving DecidableEq

namespace Issue

def severity (i : Issue) : Severity := i.complaint.severity

def toRecord (i : Issue) : Document :=
  .object ([("type", .text i.severity.id), ("message", .text i.complaint.message),
    ("suggestion", .text i.complaint.suggestion), ("component", .text i.component)] ++
    match i.complaint.pin? with
    | some pin => [("pin", .text pin.shown)]
    | none => [])

end Issue

/-- The overall state of a project, from good to bad. -/
inductive Status where
  | success
  | warning
  | error
  deriving DecidableEq, Repr

def Status.id : Status → String
  | success => "success"
  | warning => "warning"
  | error => "error"

/-- The worst severity decides. -/
def Status.ofIssues (issues : List Issue) : Status :=
  if issues.any (·.severity == .error) then .error
  else if issues.isEmpty then .success
  else .warning

/-- What is known about the components of a project on a board. -/
structure Report where
  issues : List Issue
  componentCount : Nat
  pins : Pin.Counts
  deriving DecidableEq

namespace Report

def status (r : Report) : Status := Status.ofIssues r.issues

/-- Bounds on the number of blocks that a program for so many components has. -/
def blockEstimate (components : Nat) : String :=
  s!"{max 4 (components * 2)}-{max 8 (components * 4)}"

def estimatedBlocks (r : Report) : String := blockEstimate r.componentCount

/-- Programs are made unless there is an error. -/
def allowsGeneration (r : Report) : Bool := r.status != .error

/-- How many issues are errors. -/
def errorCount (r : Report) : Nat := (r.issues.filter (·.severity == .error)).length

def toRecord (r : Report) : Document :=
  .object [("status", .text r.status.id), ("issues", .list (r.issues.map Issue.toRecord)),
    ("componentCount", .int r.componentCount), ("digitalPinsUsed", .int r.pins.digital),
    ("analogPinsUsed", .int r.pins.analog), ("estimatedBlocks", .text r.estimatedBlocks)]

/-- Generation is refused exactly if some issue is an error. -/
theorem allowsGeneration_eq_false_iff {r : Report} :
    r.allowsGeneration = false ↔ ∃ i ∈ r.issues, i.severity = .error := by
  unfold allowsGeneration status Status.ofIssues
  by_cases h : r.issues.any (·.severity == .error) = true
  · have he : ∃ i ∈ r.issues, i.severity = .error := by simpa using h
    simp only [h, if_true, he, iff_true]
    decide
  · have hn : ¬ ∃ i ∈ r.issues, i.severity = .error := by simpa using h
    by_cases he : r.issues.isEmpty <;> simp_all

end Report

end BlockSketch
