import BlockSketch.CommandLine.Command
import BlockSketch.CommandLine.Journal
import BlockSketch.Log.Event
import BlockSketch.Pin.Record
import BlockSketch.Settings.File

/-!
# Running commands

A command prints a text and leaves files behind; the program exits with zero unless something is wrong.
Faults of the project and of the settings are reported; faults of the surroundings stop the run.
-/

namespace BlockSketch.CommandLine

open Arguments

/-- What a run leaves behind. -/
structure Outcome where
  status : Nat
  output : String := ""
  errors : String := ""
  /-- What the journal keeps, if the run came so far. -/
  records : List Log.Record := []
  files : FileTree

/-- Why a run stops without an outcome. -/
inductive RunFailure where
  | project (failure : Failure)
  | settings (failure : SettingsFileFailure)
  | journal (fault : JournalFault)

def RunFailure.message : RunFailure → String
  | project failure => failure.message
  | settings failure => failure.message
  | journal fault => fault.message

/-- All went well. -/
def statusOk : Nat := 0

/-- The project or the settings are at fault. -/
def statusFailure : Nat := 1

/-- The report has errors. -/
def statusBlocked : Nat := 2

/-- The arguments make no sense. -/
def statusUsage : Nat := 2

/-- Lines, each with its end. -/
def linesText (lines : List String) : String := String.join (lines.map (· ++ "\n"))

/-- The lines of an issue. -/
def issueLines (i : Issue) : List String :=
  let place := if i.component.isEmpty then "" else s!" [{i.component}]"
  [s!"{Text.uppercase i.severity.id}{place}: {i.complaint.message}",
    s!"  Suggestion: {i.complaint.suggestion}"]

/-- The lines of a report. -/
def reportLines (r : Report) : List String :=
  [s!"Status: {Text.uppercase r.status.id}", s!"Components: {r.componentCount}",
    s!"Digital pins used: {r.pins.digital}", s!"Analog pins used: {r.pins.analog}",
    s!"Estimated blocks: {r.estimatedBlocks}"] ++ r.issues.flatMap issueLines

/-- The line of a board; a star marks the chosen one. -/
def boardLine (chosen b : Board) : String :=
  let marker := if b = chosen then "*" else " "
  s!"{marker} {b.id}\t{b.profile.name}\t{b.profile.description}"

/-- The line of a known kind of part. -/
def specLine (kind : String) (s : Spec) : String :=
  let names := ",".intercalate s.labels
  let labels := if s.labels.isEmpty then "" else s!" ({names})"
  let blocks := ", ".intercalate s.blocks
  s!"{kind}\t{s.name}\t{s.pinCount} pin(s){labels}\t{blocks}"

/-- Reads the project file of a target and replaces what the target replaces. -/
def Target.load (t : Target) (files : FileTree) (defaultBoard : Board) : Except Failure Project := do
  let p ← Project.load files t.path t.path.text defaultBoard
  return { p with board := t.board.getD p.board, prompt := t.prompt.getD p.prompt }

/-- What a command works with. -/
structure Surroundings where
  env : Environment
  files : FileTree
  now : Instant
  /-- The directory of the journal. -/
  journals : Path

/-- The text that a command prints, with the status and the files it leaves. -/
structure Printed where
  text : String
  status : Nat := statusOk
  files : FileTree

/-- Does what a command asks for. -/
def Command.perform (c : Command) (s : Settings) (w : Surroundings) : Except Failure Printed :=
  let print (text : String) : Printed := ⟨text, statusOk, w.files⟩
  let line (text : String) : Printed := print (text ++ "\n")
  match c with
  | .boards => .ok (print (linesText (Board.all.map (boardLine s.board))))
  | .components => .ok (print (linesText (catalogue.map fun (kind, spec) => specLine kind spec)))
  | .examples => .ok (print (linesText (examplePrompts.map fun (name, prompt) => s!"{name}\t{prompt}")))
  | .pins text => do
    let pins ← liftM (Pin.readAll text)
    return line (← liftM (Json.write Json.line (.list (pins.map Pin.toDocument))))
  | .parse prompt => do
    let actions ← liftM (Prompt.actions prompt)
    return line (← liftM (Json.write Json.indentedAscii (.list (Action.toRecords actions))))
  | .validate target asRecord => do
    let p ← target.load w.files s.board
    let report ← p.report
    let text ← if asRecord then do
        pure ((← liftM (Json.write Json.indentedAscii report.toRecord)) ++ "\n")
      else pure (linesText (reportLines report))
    return { print text with status := if report.status = .error then statusFailure else statusOk }
  | .pseudocode target asRecord => do
    let p ← target.load w.files s.board
    let g ← p.generate
    if asRecord then
      return line (← liftM (Json.write Json.indentedAscii (.list (g.steps.map Step.toRecord))))
    else return line (Step.render "  " g.steps)
  | .sketch target => do
    let p ← target.load w.files s.board
    return print (← p.exportSketch w.now)
  | .export target format directory => do
    let p ← target.load w.files s.board
    let (file, files) ←
      p.writeExport w.env w.files (directory.getD s.exportDirectory) format w.now
    return ⟨file.text ++ "\n", statusOk, files⟩

/-- The events of working on the project of a target. -/
def Target.events (t : Target) (s : Settings) (w : Surroundings) (work : Project → List Event) :
    List Event :=
  Event.following (t.load w.files s.board) work

/-- The events of a command. -/
def Command.events (c : Command) (s : Settings) (w : Surroundings) : List Event :=
  match c with
  | .parse prompt => Event.ofPrompt prompt
  | .validate target _ => target.events s w fun p => Event.ofValidation p.board p.components
  | .pseudocode target _ => target.events s w Event.ofGeneration
  | .sketch target => target.events s w fun p => Event.ofExport p .ino
  | .export target format directory =>
    target.events s w fun p =>
      Event.ofExport p format ++
        Event.following
          (p.writeExport w.env w.files (directory.getD s.exportDirectory) format w.now)
          fun (file, _) => [.exported format file]
  | _ => []

/-- The lines about a failure, and the status; failures that are not about the project have none. -/
def reported? (f : Failure) : Option (Nat × List String) :=
  match f with
  | .blocked report => some (statusBlocked, f.message :: reportLines report)
  | f => if f.isDomain then some (statusFailure, [s!"Error: {f.message}"]) else none

/-- The outcome of arguments that stop the program before it starts. -/
def Stop.outcome (files : FileTree) : Stop → Outcome
  | .help => { status := statusOk, files := files }
  | .version => { status := statusOk, output := Project.version ++ "\n", files := files }
  | .fault program fault =>
    { status := statusUsage, errors := faultLine program fault ++ "\n", files := files }

/-- The environment in which a named settings file is the one to read. -/
def withSettingsFile (env : Environment) : Option Path → Except RunFailure Environment
  | none => .ok env
  | some p =>
    (env.expandHome p >>= fun q => env.assign Settings.fileVariable q.text).mapError fun fault =>
      .settings (.file fault)

/-- Runs a command under settings, with a journal that is open already. -/
def Command.run (c : Command) (s : Settings) (w : Surroundings) (journal : Log.Journal) :
    Except RunFailure Outcome :=
  let records := journal.recordsFor .file ((c.events s w).map Event.record)
  let finish (status : Nat) (output errors : String) (files : FileTree) :
      Except RunFailure Outcome := do
    let stamp := w.now.precise
    let files ← (journal.writeLines files (Log.Record.fileLine stamp) records).mapError
      fun f => .journal (.directory f)
    return ⟨status, output, errors, records, files⟩
  match c.perform s w with
  | .ok printed => finish printed.status printed.text "" printed.files
  | .error failure =>
    match reported? failure with
    | some (status, lines) => finish status "" (linesText lines) w.files
    | none => .error (.project failure)

/-- Runs the program. -/
def run (arguments : List String) (w : Surroundings) : Except RunFailure Outcome :=
  match Request.ofArguments arguments with
  | .error stop => .ok (Stop.outcome w.files stop)
  | .ok request => do
    let env ← withSettingsFile w.env request.settings
    match Settings.load env w.files with
    | .error failure =>
      if failure.isFault then
        return { status := statusFailure, errors := s!"Error: {failure.message}\n", files := w.files }
      else throw (.settings failure)
    | .ok settings =>
      let (journal, files) ←
        (openJournal w.files w.journals settings.level false).mapError .journal
      request.command.run settings { w with env := env, files := files } journal

end BlockSketch.CommandLine
