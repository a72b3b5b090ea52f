import BlockSketch.Arguments.Reading
import BlockSketch.Service.Journal
import BlockSketch.Service.Respond
import BlockSketch.Settings.File

/-!
# Launching the service

Arguments override settings.  What is launched is described by a value: the address, the application,
and its journal.
-/

namespace BlockSketch.Service

open Arguments

/-- The name of the program. -/
def program : String := "ardublock-service"

def valueSwitch (name : String) (integer : Bool) : Item :=
  .switch ⟨[name], .value ⟨integer, []⟩, false⟩

/-- What the program accepts. -/
def grammar : Grammar where
  program := program
  items := [.switch ⟨["-h", "--help"], .help, false⟩, valueSwitch "--config" false,
    valueSwitch "--host" false, valueSwitch "--port" true, valueSwitch "--token" false]

/-- What the arguments override. -/
structure Overrides where
  settings : Option Path
  host : Option String
  port : Option Int
  token : Option String

/-- Reads the arguments. -/
def Overrides.ofArguments (arguments : List String) : Except Stop Overrides := do
  let r ← read grammar arguments
  refuseLeftover grammar r.leftover
  return {
    settings := (r.value? "--config").map Path.ofText
    host := r.value? "--host"
    port := (r.value? "--port").bind fun s => (Numeral.read s).toOption
    token := r.value? "--token" }

/-- Why the service cannot be launched. -/
inductive LaunchFailure where
  | arguments (stop : Stop)
  | settings (failure : SettingsFileFailure)
  | portOutOfRange
  | file (fault : FileFault)
  | journal (failure : JournalFailure)

def portMessage : String := "Service port must be between 1 and 65535"

/-- The settings with what the arguments override. -/
def Overrides.apply (o : Overrides) (s : Settings) : Except LaunchFailure Settings :=
  let s := { s with host := o.host.getD s.host, token := o.token.getD s.token }
  match o.port with
  | none => .ok s
  | some port =>
    if port ≤ 0 || Settings.maxPort < port then .error .portOutOfRange
    else .ok { s with port := port }

/-- A service that is ready to listen. -/
structure Launched where
  host : String
  port : Int
  app : App
  journal : Log.Journal
  /-- The environment in which it runs. -/
  env : Environment
  files : FileTree

/-- The environment with the level of the settings, unless it sets a level itself. -/
def withLevel (env : Environment) (level : String) : Environment :=
  match env.get? levelVariable with
  | some _ => env
  | none => env.set levelVariable level

/-- Makes a service of settings. -/
def launchFrom (env : Environment) (files : FileTree) (s : Settings) :
    Except LaunchFailure Launched := do
  let env := withLevel env s.level
  let (journal, files) ← (openJournal env files).mapError .journal
  return ⟨s.host, s.port, App.make (some s.token) s.board, journal, env, files⟩

/-- The environment in which a named settings file is the one to read. -/
def withSettingsFile (env : Environment) : Option Path → Except LaunchFailure Environment
  | none => .ok env
  | some p =>
    (env.expandHome p >>= fun q => env.assign Settings.fileVariable q.text).mapError .file

/-- Launches the service as arguments, settings and environment say. -/
def launch (arguments : List String) (env : Environment) (files : FileTree) :
    Except LaunchFailure Launched := do
  let o ← (Overrides.ofArguments arguments).mapError .arguments
  let env ← withSettingsFile env o.settings
  let s ← (Settings.load env files).mapError .settings
  launchFrom env files (← o.apply s)

end BlockSketch.Service
