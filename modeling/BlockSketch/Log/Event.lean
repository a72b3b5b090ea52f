import BlockSketch.Log.Record
import BlockSketch.Project.Export

/-!
# Events

What the parts of the program report about their work: which rule read a segment, what was checked,
generated and exported.  The events of a piece of work are those up to its end or to its failure.
-/

namespace BlockSketch

/-- Something worth a record. -/
inductive Event where
  | matched (segment : List Char) (rule : Prompt.Rule)
  | dropped (segment : List Char)
  | validated (board : Board) (issues : Nat)
  | modesSkipped (kind : String)
  | generated (steps actions : Nat) (board : Board)
  | exported (format : ExportFormat) (target : Path)

namespace Event

open Log

/-- The record of an event. -/
def record : Event → Record
  | matched segment rule =>
    ⟨"ardublock.core.parser", .debug,
      s!"Segment {Text.quoted (String.ofList segment)} matched rule {rule.id}", []⟩
  | dropped segment =>
    ⟨"ardublock.core.parser", .debug,
      s!"Dropped unrecognised segment {Text.quoted (String.ofList segment)}", []⟩
  | validated board issues =>
    ⟨"ardublock.core.validation", .debug,
      s!"Validated components on {board.profile.name}: {issues} issue(s)", []⟩
  | modesSkipped kind =>
    ⟨"ardublock.core.pseudocode", .debug,
      s!"Skipping pin modes for unknown component kind {Text.quoted kind}", []⟩
  | generated steps actions board =>
    ⟨"ardublock.services.project", .info,
      s!"Generated {steps} step(s) from {actions} action(s) for {board.id}", []⟩
  | exported format target =>
    ⟨"ardublock.services.export_service", .info, s!"Exported {format.id} to {target.text}", []⟩

/-- The events that follow a step, if the step succeeds. -/
def following {ε α : Type} (step : Except ε α) (events : α → List Event) : List Event :=
  match step with
  | .ok a => events a
  | .error _ => []

/-- The event of one segment of a prompt; a directive makes none. -/
def ofClause (segment : List Char) : Prompt.Clause → List Event
  | .directive _ => []
  | .action rule _ => [matched (Text.lower segment) rule]
  | .unknown => [dropped segment]

/-- The events of reading segments. -/
def ofSegments : List (List Char) → List Event
  | [] => []
  | s :: rest => following (Prompt.clause (Text.lower s)) fun c => ofClause s c ++ ofSegments rest

/-- The events of reading a prompt. -/
def ofPrompt (prompt : String) : List Event := ofSegments (Prompt.segments prompt.toList)

/-- The event of checking components. -/
def ofValidation (board : Board) (components : List Component) : List Event :=
  following (Validation.issues board components) fun issues => [validated board issues.length]

/-- The events of setting pin modes: one for every component of unknown kind. -/
def ofModes : List Component → List Event
  | [] => []
  | c :: rest =>
    following (Program.pinModes c) fun _ =>
      (if c.spec?.isNone then [modesSkipped c.kindName] else []) ++ ofModes rest

/-- The events of reading a prompt and turning it into a program. -/
def ofBuilding (p : Project) (done : List Action → List Step → List Event) : List Event :=
  ofPrompt p.prompt ++
    following (Prompt.actions p.prompt) fun actions =>
      ofModes p.components ++ following (Program.steps actions p.components) (done actions)

/-- The events of checking a project and refusing it if it has errors. -/
def ofGate (p : Project) (done : List Event) : List Event :=
  ofValidation p.board p.components ++ following (p.report >>= Project.gate) fun _ => done

/-- The events of `Project.generate`. -/
def ofGeneration (p : Project) : List Event :=
  if Text.isBlankText p.prompt then []
  else ofGate p (ofBuilding p fun actions steps => [generated steps.length actions.length p.board])

/-- The events of `Project.exportAs`. -/
def ofExport (p : Project) : ExportFormat → List Event
  | .ino => ofGate p (ofPrompt p.prompt)
  | _ => ofValidation p.board p.components ++ following p.report fun _ => ofBuilding p fun _ _ => []

end Event

end BlockSketch
