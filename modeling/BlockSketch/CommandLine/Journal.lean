import BlockSketch.Files.Environment
import BlockSketch.Log.Journal

/-!
# The journal of the command line

Its file is in a directory that is chosen when the program starts, usually below one's home.  On a terminal, warnings are shown as well.
-/

namespace BlockSketch.CommandLine

open Log

/-- Why the journal cannot be set up. -/
inductive JournalFault where
  /-- The directory cannot be made. -/
  | directory (fault : FileFault)
  /-- The file cannot be used. -/
  | file
  /-- There is no such level. -/
  | level
  deriving DecidableEq, Repr

def JournalFault.message : JournalFault → String
  | directory fault => fault.message
  | file => "Unable to configure handler 'file'"
  | level => "Unable to configure root logger"

/-- The directory of the journal, seen from one's home. -/
def journalDirectory : Path := .ofText ".ardublock/logs"

def journalName : String := "ardublock.log"

/-- The level if none is chosen. -/
def standardLevel : String := "INFO"

/-- Sets the journal up in a directory.  The level may be in any letter case. -/
def openJournal (files : FileTree) (directory : Path) (level : String) (terminal : Bool) :
    Except JournalFault (Journal × FileTree) := do
  let files ← (files.ensureDirectory directory).mapError .directory
  let file := directory.child journalName
  let files ← (Journal.openFile files file).mapError fun _ => .file
  match Level.ofName? (Text.uppercase level) with
  | none => throw .level
  | some threshold =>
    let sinks := (Sink.file, Level.unset) :: if terminal then [(Sink.console, .warning)] else []
    return (⟨some file, threshold, sinks⟩, files)

end BlockSketch.CommandLine
