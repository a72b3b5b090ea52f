import BlockSketch.Log.Event
import BlockSketch.Pin.Record
import BlockSketch.Service.Endpoint

/-!
# Tasks

Doing what a request asks for.  The answer is a document; what the program reports meanwhile is kept
beside it.
-/

namespace BlockSketch.Service

/-- What a service knows: its token, which is empty if everybody may use it, and the board for
projects that name none. -/
structure App where
  token : String
  defaultBoard : Board

namespace App

/-- The service with a token around which white space does not count. -/
def make (token : Option String) (defaultBoard : Board) : App :=
  ⟨Text.strip (token.getD ""), defaultBoard⟩

def needsToken (app : App) : Bool := !app.token.isEmpty

/-- The board of a request; no name and the empty name stand for the default. -/
def board (app : App) (name : Option String) : Except Failure Board :=
  match name with
  | none => .ok app.defaultBoard
  | some s => if s.isEmpty then .ok app.defaultBoard else Project.readBoard (.text s)

end App

/-- The record of a board. -/
def boardRecord (b : Board) : Document :=
  let p := b.profile
  .object [("id", .text b.id), ("name", .text p.name), ("description", .text p.description),
    ("digital_pins", .naturals p.digitalPins), ("analog_pins", .texts p.analogPins),
    ("pwm_pins", .naturals p.pwmPins)]

/-- The record of a known kind of part. -/
def specRecord (kind : String) (s : Spec) : Document :=
  .object [("type", .text kind), ("name", .text s.name), ("pin_count", .int s.pinCount),
    ("pin_types", .texts (s.pinTypes.map PinType.id)), ("blocks", .texts s.blocks),
    ("category", .text s.category),
    ("pin_labels", if s.labels.isEmpty then .null else .texts s.labels)]

/-- Reads the components of checked records, the first of which has the given number.  Their fields are
known to be of the right kind, so a value of the wrong kind would not be the fault of a record. -/
def readComponents (number : Nat) : List Document → Except Failure (List Component)
  | [] => .ok []
  | d :: ds =>
    match Component.ofRecord d (toString number) with
    | .ok c => do return c :: (← readComponents (number + 1) ds)
    | .error fault =>
      .error (if fault.isOverflow || fault.isKindMismatch then .component fault
        else .project (.component number fault))

/-- The project of a draft.  Its board is looked at before its components. -/
def Draft.project (app : App) (draft : Draft) : Except Failure Project := do
  let board ← app.board draft.board
  let components ← readComponents 1 draft.components
  return ⟨draft.prompt, board, components⟩

/-- The program of a draft with its report. -/
def Draft.pseudocode (app : App) (draft : Draft) : Except Failure Project.Generated := do
  (← draft.project app).generate

/-- The sketch of a draft with its report.  The prompt is looked at first. -/
def Draft.sketch (app : App) (now : Instant) (draft : Draft) : Except Failure (String × Report) := do
  if Text.isBlankText draft.prompt then throw .emptyPrompt
  let p ← draft.project app
  let report ← p.report
  Project.gate report
  let actions ← p.actions
  let code ← liftM (Sketch.render actions p.components p.board now.date)
  return (code, report)

/-- The report on the parts of a request.  Components are looked at before the board. -/
def Parts.report (app : App) (parts : Parts) : Except Failure Report := do
  let components ← readComponents 1 parts.components
  let board ← app.board parts.board
  liftM (Validation.report board components)

/-- Does what a request asks for. -/
def Task.perform (app : App) (now : Instant) : Task → Except Failure Document
  | .health =>
    .ok (.object [("ok", .bool true), ("version", .text Project.version),
      ("auth_required", .bool app.needsToken)])
  | .boards => .ok (.list (Board.all.map boardRecord))
  | .components => .ok (.list (catalogue.map fun (kind, s) => specRecord kind s))
  | .examples => .ok (.object (examplePrompts.map fun (name, s) => (name, .text s)))
  | .parsePins text => do
    let pins ← liftM (Pin.readAll text)
    return .object [("pins", .list (pins.map Pin.toDocument))]
  | .countPins parts => do
    let components ← readComponents 1 parts.components
    let counts ← liftM (Validation.pinCounts components)
    return counts.toRecord
  | .validate parts => do return (← parts.report app).toRecord
  | .parse prompted => do
    let _ ← readComponents 1 prompted.components
    let actions ← liftM (Prompt.actions prompted.prompt)
    return .list (Action.toRecords actions)
  | .pseudocode draft => do
    let g ← draft.pseudocode app
    return .object [("actions", .list (Action.toRecords g.actions)),
      ("steps", .list (g.steps.map Step.toRecord)), ("report", g.report.toRecord)]
  | .sketch draft => do
    let (code, report) ← draft.sketch app now
    return .object [("code", .text code), ("report", report.toRecord)]

/-- The record of a sketch that was made. -/
def sketchRecord (board : Board) : Log.Record :=
  ⟨"ardublock_service.app", .info, s!"Generated sketch for {board.id}", [("event", .text "sketch")]⟩

/-- The records that follow a step, if the step succeeds. -/
def recordsAfter {ε α : Type} (step : Except ε α) (records : α → List Log.Record) :
    List Log.Record :=
  match step with
  | .ok a => records a
  | .error _ => []

/-- What is reported while a task is done. -/
def Task.records (app : App) (now : Instant) : Task → List Log.Record
  | .validate parts =>
    recordsAfter (readComponents 1 parts.components) fun components =>
      recordsAfter (app.board parts.board) fun board =>
        (Event.ofValidation board components).map Event.record
  | .parse prompted =>
    recordsAfter (readComponents 1 prompted.components) fun _ =>
      (Event.ofPrompt prompted.prompt).map Event.record
  | .pseudocode draft =>
    recordsAfter (draft.project app) fun p => (Event.ofGeneration p).map Event.record
  | .sketch draft =>
    if Text.isBlankText draft.prompt then []
    else
      recordsAfter (draft.project app) fun p =>
        (Event.ofExport p .ino).map Event.record ++
          recordsAfter (draft.sketch app now) fun _ => [sketchRecord p.board]
  | _ => []

end BlockSketch.Service
