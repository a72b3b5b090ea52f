import BlockSketch.Files.Environment
import BlockSketch.Json.Writer
import BlockSketch.Project.Basic

/-!
# Exports

A project as an instruction sheet, as a document, or as a sketch, and as a file named for the instant
of the export.
-/

namespace BlockSketch

/-- The forms in which a project can be exported. -/
inductive ExportFormat where
  | txt
  | json
  | ino
  deriving DecidableEq, Repr

namespace ExportFormat

def all : List ExportFormat := [txt, json, ino]

/-- The name of a format, which is also the ending of its files. -/
def id : ExportFormat → String
  | txt => "txt"
  | json => "json"
  | ino => "ino"

def ofId? (s : String) : Option ExportFormat := all.find? fun f => f.id == s

/-- The format that a name stands for. -/
def read (s : String) : Except Failure ExportFormat :=
  match ofId? s with
  | some f => .ok f
  | none => .error (.unsupportedFormat s)

end ExportFormat

namespace Project

/-- The version that documents give. -/
def version : String := "0.1.0"

/-- A line of `n` equal characters. -/
def ruler (n : Nat) (c : Char) : String := String.ofList (List.replicate n c)

/-- The paragraph of a component in the instruction sheet; components of unknown kind have none. -/
def sheetEntry (c : Component) : List String :=
  match c.spec? with
  | none => []
  | some spec =>
    let label := match c.label with
      | some d => s!" ({d.shown})"
      | none => ""
    let blocks := ", ".intercalate spec.blocks
    [s!"• {spec.name}{label}", s!"  Pins: {c.pins}", s!"  ArduBlock Category: {spec.category}",
      s!"  Required Blocks: {blocks}", ""]

/-- The lines of an issue in the instruction sheet. -/
def sheetIssue (i : Issue) : List String :=
  [s!"• {Text.uppercase i.severity.id}: {i.complaint.message}",
    s!"  Suggestion: {i.complaint.suggestion}"]

/-- The lines of the instruction sheet. -/
def sheetLines (p : Project) (now : Instant) (report : Report) (steps : List Step) : List String :=
  ["Arduino Project Instructions - ArduBlock.ru Compatible", ruler 56 '=', "",
    s!"Project: {p.prompt}",
    s!"Arduino Model: {p.board.profile.name}",
    s!"Generated: {now.display}",
    s!"Components: {p.components.length}", "",
    "COMPONENTS CONFIGURATION:", ruler 24 '-'] ++
  p.components.flatMap sheetEntry ++
  ["ARDUBLOCK.RU INSTRUCTIONS:", ruler 26 '-', Step.render "  " steps, "",
    "", "PROJECT DESCRIPTION:", ruler 19 '-', p.prompt, "",
    "DEBUG REPORT:", ruler 13 '-',
    s!"Status: {Text.uppercase report.status.id}",
    s!"Digital Pins Used: {report.pins.digital}",
    s!"Analog Pins Used: {report.pins.analog}",
    s!"Estimated Blocks: {report.estimatedBlocks}"] ++
  if report.issues.isEmpty then []
  else ["", "ISSUES:"] ++ report.issues.flatMap sheetIssue

/-- The instruction sheet.  It is made even when the report has errors. -/
def exportSheet (p : Project) (now : Instant) : Except Failure String := do
  let report ← p.report
  let actions ← p.actions
  let steps ← liftM (Program.steps actions p.components)
  return "\n".intercalate (p.sheetLines now report steps) ++ "\n"

/-- The document of a project with its program and its report. -/
def exportRecord (p : Project) (now : Instant) : Except Failure Document := do
  let report ← p.report
  let actions ← p.actions
  let steps ← liftM (Program.steps actions p.components)
  return .object [("model", .text p.board.id), ("prompt", .text p.prompt),
    ("components", .list (p.components.map Component.toRecord)),
    ("pseudocode", .list (steps.map Step.toRecord)), ("debugReport", report.toRecord),
    ("timestamp", .text (now.text "T")), ("version", .text version)]

/-- The text of the document. -/
def exportDocument (p : Project) (now : Instant) : Except Failure String := do
  liftM (Json.write Json.indented (← p.exportRecord now))

/-- The sketch of a project.  It is refused if the report has errors. -/
def exportSketch (p : Project) (now : Instant) : Except Failure String := do
  gate (← p.report)
  let actions ← p.actions
  liftM (Sketch.render actions p.components p.board now.date)

/-- The text of a project in a format. -/
def exportAs (p : Project) (now : Instant) : ExportFormat → Except Failure String
  | .txt => p.exportSheet now
  | .json => p.exportDocument now
  | .ino => p.exportSketch now

/-- The name of an exported file: the instant in milliseconds, and the format. -/
def exportName (format : ExportFormat) (now : Instant) : String :=
  s!"arduino-project-{now.milliseconds}.{format.id}"

/-- Writes a project to a file in a directory and returns its path.  The text is made first, so that
nothing is written when that fails. -/
def writeExport (p : Project) (env : Environment) (files : FileTree) (directory : Path)
    (format : ExportFormat) (now : Instant) : Except Failure (Path × FileTree) := do
  let text ← p.exportAs now format
  let directory ← liftM (env.expandHome directory)
  let files ← liftM (files.ensureDirectory directory)
  let target := directory.child (exportName format now)
  let files ← liftM (files.writeText target text)
  return (target, files)

/-- Writes a project in the format that a name stands for, and gives the tree that is left, also if
that fails.  Nothing is done to the tree before the text is made. -/
def attemptExport (p : Project) (env : Environment) (files : FileTree) (directory : Path)
    (name : String) (now : Instant) : Except Failure Path × FileTree :=
  match ExportFormat.read name with
  | .error e => (.error e, files)
  | .ok format =>
    match p.exportAs now format with
    | .error e => (.error e, files)
    | .ok text =>
      match env.expandHome directory with
      | .error fault => (.error (.file fault), files)
      | .ok directory =>
        match files.attemptDirectories directory FileTree.maxDirectories with
        | (.error fault, files) => (.error (.file fault), files)
        | (.ok (), files) =>
          let target := directory.child (exportName format now)
          match files.attemptText target text with
          | (.error fault, files) => (.error (.file fault), files)
          | (.ok (), files) => (.ok target, files)

end Project

end BlockSketch
