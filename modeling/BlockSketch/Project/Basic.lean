import BlockSketch.Project.Failure
import BlockSketch.Prompt.Actions

/-!
# Projects

A project is a prompt, a board and components.  It is read from a document, checked, and turned into
a program unless the check finds errors.
-/

namespace BlockSketch

/-- A project. -/
structure Project where
  prompt : String := ""
  board : Board := .standard
  components : List Component := []

namespace Project

/-- Reads the components of a list, the first of which has the given number. -/
def readComponents (number : Nat) : List Document → Except Failure (List Component)
  | [] => .ok []
  | d :: ds =>
    match d with
    | .map _ =>
      match Component.ofRecord d (toString number) with
      | .ok c => do return c :: (← readComponents (number + 1) ds)
      | .error fault =>
        .error (if fault.isOverflow then .component fault else .project (.component number fault))
    | _ => .error (.project (.componentNotMapping number))

/-- The value under the first key if the mapping has it, else under the second, else the default. -/
def either (d : Document) (first second : String) (default : Document) : Document :=
  ((d.get? first).or (d.get? second)).getD default

/-- Reads a board that a document names. -/
def readBoard (d : Document) : Except Failure Board := (Board.read d).mapError .unknownBoard

/-- Reads a project from a document.  A board that is not given is the default one. -/
def ofDocument (d : Document) (defaultBoard : Board) : Except Failure Project :=
  match d with
  | .map _ =>
    match (d.get "components").orElse (.list []) with
    | .list records => do
      let components ← readComponents 1 records
      let prompt := either d "prompt" "projectPrompt" (.text "")
      let board := either d "board" "arduinoModel" .null
      return {
        prompt := (prompt.orElse (.text "")).shown
        board := ← if board.truthy then readBoard board else pure defaultBoard
        components := components }
    | _ => .error (.project .componentsNotList)
  | _ => .error (.project .notMapping)

/-- Reads a project file.  `shownPath` is the path as messages give it. -/
def load (files : FileTree) (path : Path) (shownPath : String) (defaultBoard : Board) :
    Except Failure Project := do
  let bytes ← match files.read path with
    | .ok bytes => pure bytes
    | .error fault =>
      throw (if fault.isSystem then .project (.unreadable shownPath fault) else .file fault)
  let text ← (Utf8.decode bytes).mapError .undecodable
  match Json.read (String.ofList (Text.unifyBreaks text)) with
  | .ok d => ofDocument d defaultBoard
  | .error (.malformed fault) => throw (.project (.malformed shownPath fault))
  | .error (.numeral fault) => throw (.numeral fault)
  | .error (.tooDeep nest) => throw (.tooDeep nest)

/-- The record of a project. -/
def toRecord (p : Project) : Document :=
  .object [("prompt", .text p.prompt), ("board", .text p.board.id),
    ("components", .list (p.components.map Component.toRecord))]

/-- The place of the component that an index means; a negative index counts from the end. -/
def place? (p : Project) (index : Int) : Option Nat :=
  let place := if index < 0 then index + p.components.length else index
  if 0 ≤ place ∧ place < p.components.length then some place.toNat else none

/-- The project without the component at an index. -/
def remove? (p : Project) (index : Int) : Option Project :=
  (p.place? index).map fun i => { p with components := p.components.eraseIdx i }

/-- The project with a change to the component at an index. -/
def modify? (p : Project) (index : Int) (change : Component → Component) : Option Project :=
  (p.place? index).map fun i => { p with components := p.components.modify i change }

/-- The report on the components. -/
def report (p : Project) : Except Failure Report := liftM (Validation.report p.board p.components)

/-- The actions of the prompt. -/
def actions (p : Project) : Except Failure (List Action) := liftM (Prompt.actions p.prompt)

/-- Refuses a report with errors. -/
def gate (r : Report) : Except Failure Unit :=
  if r.allowsGeneration then .ok () else .error (.blocked r)

/-- What generation makes of a project. -/
structure Generated where
  actions : List Action
  steps : List Step
  report : Report

/-- Turns a project into a program: the prompt must not be blank, and the report must have no
errors. -/
def generate (p : Project) : Except Failure Generated := do
  if Text.isBlankText p.prompt then throw .emptyPrompt
  let report ← p.report
  gate report
  let actions ← p.actions
  let steps ← liftM (Program.steps actions p.components)
  return ⟨actions, steps, report⟩

end Project

end BlockSketch
