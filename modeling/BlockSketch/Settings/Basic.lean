import BlockSketch.Board
import BlockSketch.Component.Record
import BlockSketch.Files.Environment
import BlockSketch.Files.Tree

/-!
# Settings

The choices that hold for all projects: the board, the directory of exports, the address and the token
of the service, and the level of the log.  They are read from four sections of a document; a section
that the document has replaces the standard one.
-/

namespace BlockSketch

/-- The settings, and the file they were read from or written to. -/
structure Settings where
  board : Board
  exportDirectory : Path
  host : String
  port : Int
  token : String
  level : String
  source : Option Path
  deriving DecidableEq

/-- What is wrong with the settings of a document. -/
inductive SettingsFault where
  | notMapping
  | sectionNotMapping (name : String)
  | unknownBoard (name : String)
  | badDirectory
  | directoryIsFile
  | badHost
  | tokenNotText
  | portNotInteger
  | portOutOfRange
  | unknownLevel
  deriving DecidableEq, Repr

/-- Why settings cannot be read or written. -/
inductive SettingsFailure where
  | fault (fault : SettingsFault)
  /-- A value that should be a name cannot be shown. -/
  | value (fault : Document.ShowingFault)
  /-- The port is a number without an amount. -/
  | port (fault : ComponentFault)
  | file (fault : FileFault)

namespace Settings

/-- The names of the levels of the log, in alphabetical order. -/
def levels : List String := ["CRITICAL", "DEBUG", "ERROR", "INFO", "WARNING"]

/-- The greatest port. -/
def maxPort : Int := 65535

/-- The directory of exports if none is chosen. -/
def standardDirectory : String := "~/ardublock-exports"

def standardHost : String := "127.0.0.1"

def standardPort : Int := 8765

def standardLevel : String := "INFO"

/-- The standard sections. -/
def standard : Document :=
  .object [
    ("board", .object [("default", .text Board.standard.id)]),
    ("export", .object [("out_dir", .text standardDirectory)]),
    ("service", .object [("host", .text standardHost), ("port", .int standardPort),
      ("auth_token", .text "")]),
    ("logging", .object [("level", .text standardLevel)])]

end Settings

def SettingsFault.message : SettingsFault → String
  | notMapping => "configuration must contain a mapping at the top level"
  | sectionNotMapping name => s!"{name} must be a mapping"
  | unknownBoard name => s!"board.default: Unknown board '{name}'"
  | badDirectory => "export.out_dir must be a non-empty string"
  | directoryIsFile => "export.out_dir points to a file, expected directory"
  | badHost => "service.host must be a non-empty string"
  | tokenNotText => "service.auth_token must be a string"
  | portNotInteger => "service.port must be an integer"
  | portOutOfRange => "service.port must be between 1 and 65535"
  | unknownLevel =>
    let names := ", ".intercalate (Settings.levels.map Text.quoted)
    s!"logging.level must be one of [{names}]"

namespace Settings

/-- What a section has under a key, or the default if it lacks the key. -/
def field (part : Document) (key : String) (default : Document) : Document :=
  (part.get? key).getD default

/-- A section of a document, else the standard one.  A value that does not count as present is an
empty section. -/
def part (d : Document) (name : String) : Except SettingsFault Document :=
  match (((d.get? name).or (standard.get? name)).getD .null).orElse (.map []) with
  | .map entries => .ok (.map entries)
  | _ => .error (.sectionNotMapping name)

/-- The board that is used when a project names none. -/
def readBoard (part : Document) : Except SettingsFailure Board := do
  let d := field part "default" (.text Board.standard.id)
  let _ ← d.display.mapError .value
  (Board.read d).mapError fun name => .fault (.unknownBoard name)

/-- A path that may start in a home directory. -/
def expand (env : Environment) (text : String) : Except SettingsFailure Path :=
  (env.expandHome (.ofText text)).mapError .file

/-- The directory of exports; it must not be there as a file. -/
def readDirectory (env : Environment) (files : FileTree) (part : Document) :
    Except SettingsFailure Path :=
  match part.get "out_dir" with
  | .null => expand env standardDirectory
  | .text s =>
    if Text.isBlankText s then .error (.fault .badDirectory)
    else do
      let p ← expand env s
      let found ← (files.exists? p).mapError .file
      if found && !files.isDirectory p then throw (.fault .directoryIsFile)
      return p
  | _ => .error (.fault .badDirectory)

def readHost (part : Document) : Except SettingsFault String :=
  match field part "host" (.text standardHost) with
  | .text s => if s.isEmpty then .error .badHost else .ok s
  | _ => .error .badHost

def readToken (part : Document) : Except SettingsFault String :=
  match (part.get "auth_token").orElse (.text "") with
  | .text s => .ok (Text.strip s)
  | _ => .error .tokenNotText

/-- The port, whose fractional part is cut off. -/
def readPort (part : Document) : Except SettingsFailure Int :=
  match (field part "port" (.int standardPort)).toInt with
  | .error f => .error (if f.isOverflow then .port f else .fault .portNotInteger)
  | .ok n => if n ≤ 0 || maxPort < n then .error (.fault .portOutOfRange) else .ok n

/-- The level of the log, in any letter case and with blanks around it. -/
def readLevel (part : Document) : Except SettingsFailure String := do
  let d := (field part "level" (.text standardLevel)).orElse (.text standardLevel)
  let level := Text.uppercase (Text.strip (← d.display.mapError .value))
  if levels.contains level then return level else throw (.fault .unknownLevel)

/-- Reads settings from a document. -/
def ofDocument (env : Environment) (files : FileTree) (d : Document) :
    Except SettingsFailure Settings := do
  let fault {α : Type} (x : Except SettingsFault α) : Except SettingsFailure α := x.mapError .fault
  match d with
  | .map _ =>
    let board ← readBoard (← fault (part d "board"))
    let directory ← readDirectory env files (← fault (part d "export"))
    let service ← fault (part d "service")
    let host ← fault (readHost service)
    let token ← fault (readToken service)
    let port ← readPort service
    let level ← readLevel (← fault (part d "logging"))
    return ⟨board, directory, host, port, token, level, none⟩
  | _ => throw (.fault .notMapping)

/-- The settings where nothing is chosen. -/
def initial (env : Environment) : Except SettingsFailure Settings := do
  let directory ← expand env standardDirectory
  return ⟨.standard, directory, standardHost, standardPort, "", standardLevel, none⟩

/-- The document of the settings. -/
def toDocument (s : Settings) : Document :=
  .object [
    ("board", .object [("default", .text s.board.id)]),
    ("export", .object [("out_dir", .text s.exportDirectory.text)]),
    ("service", .object [("host", .text s.host), ("port", .int s.port), ("auth_token", .text s.token)]),
    ("logging", .object [("level", .text s.level)])]

end Settings

end BlockSketch
