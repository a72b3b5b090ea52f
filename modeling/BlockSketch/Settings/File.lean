import BlockSketch.Settings.Basic
import BlockSketch.Yaml.Reader
import BlockSketch.Yaml.Writer

/-!
# Settings files

Where settings are kept, and how they are read and written.  An environment variable can name the
file; otherwise it is in a directory below one's home, or with the program if only that one is there.
-/

namespace BlockSketch

/-- Why a settings file cannot be read or written. -/
inductive SettingsFileFailure where
  | settings (failure : SettingsFailure)
  /-- The file at a path holds no document. -/
  | document (path : String) (error : Yaml.Error)
  | file (fault : FileFault)

def SettingsFailure.message : SettingsFailure → String
  | fault f => f.message
  | value f => f.message
  | port f => f.message
  | file f => f.message

def SettingsFileFailure.message : SettingsFileFailure → String
  | settings failure => failure.message
  | document path error =>
    if error.isForm then s!"{path} is not valid YAML: {error.message path}" else error.message path
  | file fault => fault.message

/-- Whether the failure is about what the file holds, as opposed to its surroundings. -/
def SettingsFileFailure.isFault : SettingsFileFailure → Bool
  | settings (.fault _) => true
  | document _ error => error.isForm
  | _ => false

namespace Settings

/-- The variable that names the settings file. -/
def fileVariable : String := "ARDUBLOCK_CONFIG"

/-- The settings file below one's home directory. -/
def homeFile : Path := .ofText ".ardublock/ardublock.yml"

/-- The directory in which the program is installed. -/
def installation : Path := .ofText "/opt/ardublock"

/-- The settings file below the directory of the program. -/
def sharedFile : Path := .ofText "config/ardublock.yml"

/-- Where the settings are if no file is named: below one's home, unless only the file of the program
is there. -/
def usualLocation (env : Environment) (files : FileTree) : Except FileFault Path := do
  let own := ((← env.ownHome).join homeFile).resolve files.cwd
  if ← files.exists? own then return own
  let shared := (installation.join sharedFile).resolve files.cwd
  if ← files.exists? shared then return shared
  return own

/-- Where the settings are. -/
def location (env : Environment) (files : FileTree) : Except SettingsFileFailure Path :=
  let named := (env.get? fileVariable).getD ""
  let found :=
    if named.isEmpty then usualLocation env files
    else (env.expandHome (.ofText named)).map fun p => p.resolve files.cwd
  found.mapError .file

/-- The document of a settings file.  One that holds nothing that counts as present is empty. -/
def readDocument (p : Path) (bytes : List UInt8) : Except SettingsFileFailure Document :=
  match Yaml.readBytes bytes with
  | .ok d => .ok (d.orElse (.map []))
  | .error error => .error (.document p.text error)

/-- Reads the settings; a file that is not there is an empty one. -/
def load (env : Environment) (files : FileTree) : Except SettingsFileFailure Settings := do
  let p ← location env files
  let found ← (files.exists? p).mapError .file
  let document ← if found then do readDocument p (← (files.read p).mapError .file) else pure (.map [])
  let settings ← (ofDocument env files document).mapError .settings
  return { settings with source := some p }

/-- Writes the settings to the file they come from, else to the usual place.  Returns them with the
file remembered. -/
def save (s : Settings) (env : Environment) (files : FileTree) :
    Except SettingsFileFailure (Settings × FileTree) := do
  let p ← match s.source with
    | some p => pure p
    | none => location env files
  let files ← (files.ensureDirectory p.parent).mapError .file
  let files ← (files.writeText p (Yaml.write s.toDocument)).mapError .file
  return ({ s with source := some p }, files)

end Settings

end BlockSketch
