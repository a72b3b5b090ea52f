import BlockSketch.Files.Environment
import BlockSketch.Log.Journal

/-!
# The journal of the service

Variables choose its file and its level.  If the file cannot be used, records go to the console; while
debugging they go to both.
-/

namespace BlockSketch.Service

open Log

/-- Whether the value of a variable means yes. -/
def meansYes (value : Option String) : Bool :=
  match value with
  | none => false
  | some s => ["1", "true", "yes", "on"].contains (Text.lowercase (Text.strip s))

/-- The variable that sets the level. -/
def levelVariable : String := "ARDUBLOCK_LOG_LEVEL"

/-- Why a journal cannot be set up. -/
inductive JournalFailure where
  | file (fault : FileFault)
  /-- The name of the level is that of a format. -/
  | format (text : String)
  /-- The name of the level is that of the table of formats. -/
  | formats (shown : String)

def JournalFailure.message : JournalFailure → String
  | file fault => fault.message
  | format text => s!"Unknown level: {Text.quoted text}"
  | formats shown => s!"Level not an integer or a valid string: {shown}"

/-- The format that is used where none is chosen. -/
def basicFormat : String := "%(levelname)s:%(name)s:%(message)s"

/-- The table of formats: the sign that each of them is known by, its class and its pattern. -/
def formatTable : List (String × String × String) :=
  [("%", "Percent", basicFormat), ("\x7b", "StrFormat", "\x7blevelname\x7d:\x7bname\x7d:\x7bmessage\x7d"),
    ("$", "StringTemplate", "$\x7blevelname\x7d:$\x7bname\x7d:$\x7bmessage\x7d")]

/-- The table of formats as messages show it. -/
def shownFormats : String :=
  let entries := formatTable.map fun (sign, style, pattern) =>
    s!"{Text.quoted sign}: (<class 'logging.{style}Style'>, {Text.quoted pattern})"
  "\x7b" ++ ", ".intercalate entries ++ "\x7d"

/-- The level for records; unknown names and no name stand for warnings, and debugging overrides. -/
def journalLevel (env : Environment) : Except JournalFailure Level :=
  if meansYes (env.get? "ARDUBLOCK_DEBUG") then .ok .debug
  else
    let name := Text.uppercase (Text.strip ((env.get? levelVariable).getD ""))
    if name = "BASIC_FORMAT" then .error (.format basicFormat)
    else if name = "_STYLES" then .error (.formats shownFormats)
    else .ok ((Level.ofName? name).getD .warning)

/-- The trimmed value of a variable, if it is not blank. -/
def chosen? (env : Environment) (variableName : String) : Option String :=
  (env.get? variableName).bind fun value =>
    let s := Text.strip value
    if s.isEmpty then none else some s

/-- A path with variables and a home directory in it. -/
def expandPath (env : Environment) (text : String) : Except JournalFailure Path :=
  (env.expandHome (.ofText (env.expandVariables text))).mapError .file

/-- The name of the file in a chosen or in the usual directory. -/
def journalName : String := "service.log"

/-- The file for records: the one chosen, or the one in the directory chosen, or the usual one below
one's home. -/
def journalFile (env : Environment) : Except JournalFailure Path :=
  match chosen? env "ARDUBLOCK_LOG_FILE", chosen? env "ARDUBLOCK_LOG_DIR" with
  | some file, _ => expandPath env file
  | none, some directory => (expandPath env directory).map (·.child journalName)
  | none, none =>
    (env.ownHome.map fun home => (home.join (.ofText ".ardublock/logs")).child journalName).mapError
      .file

/-- Makes the file for records, after its directory. -/
def makeFile (files : FileTree) (file : Path) : FileTree × Except FileFault Unit :=
  match files.ensureDirectory file.parent with
  | .error fault => (files, .error fault)
  | .ok files =>
    match Journal.openFile files file with
    | .ok files => (files, .ok ())
    | .error fault => (files, .error fault)

/-- Sets the journal up.  Files that are in the way do not stop the service.  The level is looked at
last. -/
def openJournal (env : Environment) (files : FileTree) :
    Except JournalFailure (Journal × FileTree) := do
  let file ← journalFile env
  let (files, made) := makeFile files file
  match made with
  | .ok () =>
    let level ← journalLevel env
    let debugging := meansYes (env.get? "ARDUBLOCK_DEBUG")
    let sinks := (Sink.file, level) :: if debugging then [(Sink.console, .debug)] else []
    return (⟨some file, level, sinks⟩, files)
  | .error (.system _ _) =>
    let level ← journalLevel env
    return (⟨none, level, [(.console, level)]⟩, files)
  | .error fault => throw (.file fault)

/-- The first record of a journal says where it is. -/
def openingRecord (j : Journal) : Record :=
  match j.destination with
  | some file =>
    ⟨"ardublock_service.app", .debug, s!"Logging configured for file {file.text}", []⟩
  | none =>
    ⟨"ardublock_service.app", .warning,
      "Logging to console because ARDUBLOCK_LOG_FILE/ARDUBLOCK_LOG_DIR is unavailable.", []⟩

end BlockSketch.Service
