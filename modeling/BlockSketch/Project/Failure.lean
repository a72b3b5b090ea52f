import BlockSketch.Component.Record
import BlockSketch.Files.Tree
import BlockSketch.Json.Reader
import BlockSketch.Sketch

/-!
# Failures

Why a project cannot be read, checked, turned into a program or written.
-/

namespace BlockSketch

/-- Why something is not a project. -/
inductive ProjectFault where
  | notMapping
  | componentsNotList
  | componentNotMapping (number : Nat)
  | component (number : Nat) (fault : ComponentFault)
  | unreadable (path : String) (fault : FileFault)
  | malformed (path : String) (fault : Json.Fault)

def ProjectFault.message : ProjectFault → String
  | notMapping => "Project data must be a mapping"
  | componentsNotList => "'components' must be a list"
  | componentNotMapping number => s!"Component #{number} must be a mapping"
  | component number fault => s!"Component #{number}: {fault.message}"
  | unreadable path fault => s!"Cannot read project file {path}: {fault.message}"
  | malformed path fault => s!"Project file {path} is not valid JSON: {fault.message}"

/-- Why an operation on a project fails. -/
inductive Failure where
  | unknownBoard (name : String)
  | emptyPrompt
  /-- The report has errors. -/
  | blocked (report : Report)
  | project (fault : ProjectFault)
  | component (fault : ComponentFault)
  | numeral (fault : NumeralFault)
  | labelNotText (kind : String)
  | unsupportedFormat (name : String)
  | file (fault : FileFault)
  | undecodable (fault : Utf8.Fault)
  /-- A document is nested too deeply. -/
  | tooDeep (nest : Json.Nest)

namespace Failure

def message : Failure → String
  | unknownBoard name => s!"Unknown board '{name}'"
  | emptyPrompt => "Project prompt is empty"
  | blocked report =>
    s!"Generation blocked: {report.errorCount} error(s) in the component configuration"
  | project fault => fault.message
  | component fault => fault.message
  | numeral fault => fault.message
  | labelNotText kind => (SketchFault.labelNotText kind).message
  | unsupportedFormat name =>
    s!"Unsupported export format {Text.quoted name}; expected one of ('txt', 'json', 'ino')"
  | file fault => fault.message
  | undecodable fault => fault.message
  | tooDeep nest => nest.message

/-- Failures that are about the project, as opposed to its surroundings or its size. -/
def isDomain : Failure → Bool
  | unknownBoard _ => true
  | emptyPrompt => true
  | blocked _ => true
  | project _ => true
  | _ => false

def ofSketch : SketchFault → Failure
  | .numeral fault => .numeral fault
  | .labelNotText kind => .labelNotText kind

end Failure

instance : MonadLift (Except NumeralFault) (Except Failure) where
  monadLift x := x.mapError .numeral

instance : MonadLift (Except SketchFault) (Except Failure) where
  monadLift x := x.mapError .ofSketch

instance : MonadLift (Except FileFault) (Except Failure) where
  monadLift x := x.mapError .file

end BlockSketch
