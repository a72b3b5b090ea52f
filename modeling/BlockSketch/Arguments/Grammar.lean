import BlockSketch.Number.Numeral
import BlockSketch.Text.Quoted

/-!
# Grammars of arguments

What a command line accepts: switches, which start with hyphens, and slots, which are filled in order.
A fault names the switch or slot that it is about.
-/

namespace BlockSketch.Arguments

/-- Which texts a switch takes. -/
structure Form where
  integer : Bool := false
  /-- The texts that are allowed; none if all are. -/
  choices : List String := []

/-- What a switch does. -/
inductive Role where
  | help
  | version
  | flag
  /-- Takes the text after it. -/
  | value (form : Form)

/-- A switch; it goes by each of its names. -/
structure Switch where
  names : List String
  role : Role
  required : Bool := false

/-- The name that a switch is looked up by. -/
def Switch.key (s : Switch) : String := s.names.getLast?.getD ""

/-- The name of a switch in messages. -/
def Switch.title (s : Switch) : String := "/".intercalate s.names

/-- A place for an argument that is not a switch.  A command takes everything after it. -/
inductive Slot where
  | single (name : String)
  | command (name : String) (choices : List String)

def Slot.name : Slot → String
  | single name => name
  | command name _ => name

/-- One thing that is accepted. -/
inductive Item where
  | switch (s : Switch)
  | slot (s : Slot)

/-- All that a program accepts. -/
structure Grammar where
  program : String
  items : List Item

namespace Grammar

def switches (g : Grammar) : List Switch :=
  g.items.filterMap fun
    | .switch s => some s
    | .slot _ => none

def slots (g : Grammar) : List Slot :=
  g.items.filterMap fun
    | .switch _ => none
    | .slot s => some s

/-- The names of switches, each with its switch. -/
def named (g : Grammar) : List (String × Switch) :=
  g.switches.flatMap fun s => s.names.map (·, s)

end Grammar

/-- What is wrong with the arguments. -/
inductive Fault where
  | ambiguous (text : String) (names : List String)
  | valueMissing (title : String)
  | valueIgnored (title value : String)
  | badChoice (title value : String) (choices : List String)
  | badInteger (title value : String)
  | missing (titles : List String)
  | unrecognized (texts : List String)
  deriving DecidableEq, Repr

def Fault.message : Fault → String
  | ambiguous text names =>
    let shown := ", ".intercalate names
    s!"ambiguous option: {text} could match {shown}"
  | valueMissing title => s!"argument {title}: expected one argument"
  | valueIgnored title value => s!"argument {title}: ignored explicit argument {Text.quoted value}"
  | badChoice title value choices =>
    let shown := ", ".intercalate (choices.map Text.quoted)
    s!"argument {title}: invalid choice: {Text.quoted value} (choose from {shown})"
  | badInteger title value => s!"argument {title}: invalid int value: {Text.quoted value}"
  | missing titles =>
    let shown := ", ".intercalate titles
    s!"the following arguments are required: {shown}"
  | unrecognized texts =>
    let shown := " ".intercalate texts
    s!"unrecognized arguments: {shown}"

/-- Why reading arguments ends before the program starts. -/
inductive Stop where
  | help
  | version
  | fault (program : String) (fault : Fault)

/-- The line that reports a fault. -/
def faultLine (program : String) (fault : Fault) : String := s!"{program}: error: {fault.message}"

end BlockSketch.Arguments
