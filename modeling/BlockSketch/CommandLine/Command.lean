import BlockSketch.Arguments.Reading
import BlockSketch.Project.Export

/-!
# Commands

What the command line can be asked for, and how arguments say it.
-/

namespace BlockSketch.CommandLine

open Arguments

/-- A project file, and what replaces its board and its prompt. -/
structure Target where
  path : Path
  board : Option Board := none
  prompt : Option String := none

/-- What is asked for. -/
inductive Command where
  | boards
  | components
  | examples
  | pins (text : String)
  | parse (prompt : String)
  | validate (target : Target) (asRecord : Bool)
  | pseudocode (target : Target) (asRecord : Bool)
  | sketch (target : Target)
  | «export» (target : Target) (format : ExportFormat) (directory : Option Path)

/-- A command, and the settings file if one is named. -/
structure Request where
  settings : Option Path
  command : Command

/-- The name of the program. -/
def program : String := "ardublock"

def helpSwitch : Item := .switch ⟨["-h", "--help"], .help, false⟩

def flagSwitch (name : String) : Item := .switch ⟨[name], .flag, false⟩

def valueSwitch (name : String) (choices : List String := []) (required : Bool := false) : Item :=
  .switch ⟨[name], .value ⟨false, choices⟩, required⟩

/-- The items of commands that work on a project file. -/
def targetItems : List Item :=
  [.slot (.single "project"), valueSwitch "--board" (Board.all.map Board.id)]

/-- The commands, each with what it accepts after its name. -/
def commandItems : List (String × List Item) :=
  [("boards", []), ("components", []), ("examples", []),
    ("pins", [.slot (.single "spec")]), ("parse", [.slot (.single "text")]),
    ("validate", targetItems ++ [flagSwitch "--json"]),
    ("pseudocode", targetItems ++ [valueSwitch "--prompt", flagSwitch "--json"]),
    ("sketch", targetItems ++ [valueSwitch "--prompt"]),
    ("export", targetItems ++
      [valueSwitch "--format" (ExportFormat.all.map ExportFormat.id) true, valueSwitch "--out-dir"])]

/-- What the program accepts up to the name of a command. -/
def mainGrammar : Grammar where
  program := program
  items := [helpSwitch, .switch ⟨["--version"], .version, false⟩, valueSwitch "--config",
    .slot (.command "command" (commandItems.map Prod.fst))]

/-- What a command accepts. -/
def commandGrammar (name : String) : Grammar where
  program := s!"{program} {name}"
  items := helpSwitch :: (commandItems.lookup name).getD []

/-- The project file that the arguments name.  An empty prompt replaces nothing. -/
def targetOf (r : Reading) : Target where
  path := .ofText (r.slot "project")
  board := (r.value? "--board").bind Board.ofId?
  prompt := (r.value? "--prompt").filter (!·.isEmpty)

/-- The command of a name with its arguments. -/
def commandOf (name : String) (r : Reading) : Command :=
  match name with
  | "boards" => .boards
  | "components" => .components
  | "examples" => .examples
  | "pins" => .pins (r.slot "spec")
  | "parse" => .parse (r.slot "text")
  | "validate" => .validate (targetOf r) (r.hasFlag "--json")
  | "pseudocode" => .pseudocode (targetOf r) (r.hasFlag "--json")
  | "sketch" => .sketch (targetOf r)
  | _ =>
    .export (targetOf r) (((r.value? "--format").bind ExportFormat.ofId?).getD .txt)
      ((r.value? "--out-dir").map Path.ofText)

/-- Reads what the arguments ask for. -/
def Request.ofArguments (arguments : List String) : Except Stop Request := do
  let outer ← read mainGrammar arguments
  let (name, rest) := outer.command.getD ("", [])
  let inner ← read (commandGrammar name) rest
  refuseLeftover mainGrammar (outer.leftover ++ inner.leftover)
  return ⟨(outer.value? "--config").map Path.ofText, commandOf name inner⟩

end BlockSketch.CommandLine
