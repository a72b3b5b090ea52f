import BlockSketch.Files.Tree
import BlockSketch.Log.Record

/-!
# Journals

Where the records of a program go: to a file, to the console, or to both, each from some level on.
-/

namespace BlockSketch.Log

/-- A place for records. -/
inductive Sink where
  | file
  | console
  deriving DecidableEq, Repr

/-- The sinks of a program with their levels, and the level from which records count at all.  The
destination is the file of the file sink. -/
structure Journal where
  destination : Option Path
  threshold : Level
  sinks : List (Sink × Level)

namespace Journal

/-- Whether a record counts at all.  One without a level never does. -/
def accepts (j : Journal) (r : Record) : Bool := r.level != .unset && r.level.passes j.threshold

/-- Whether a record goes to a sink. -/
def keeps (j : Journal) (sink : Sink) (r : Record) : Bool :=
  j.accepts r && j.sinks.any fun s => s.1 == sink && r.level.passes s.2

/-- The records that go to a sink. -/
def recordsFor (j : Journal) (sink : Sink) (records : List Record) : List Record :=
  records.filter (j.keeps sink)

/-- Whether a line can be written to a sink.  A file holds no surrogates. -/
def canHold (sink : Sink) (line : String) : Bool :=
  match sink with
  | .file => (Text.Encoding.utf8.fault? line.toList).isNone
  | .console => true

/-- The lines that records leave in a sink. -/
def linesFor (j : Journal) (sink : Sink) (line : Record → String) (records : List Record) :
    List String :=
  ((j.recordsFor sink records).map line).filter (canHold sink)

/-- Makes the file of a journal without touching what it holds, after the directories that lead to it.
The file is found from the working directory with two dots already resolved. -/
def openFile (files : FileTree) (file : Path) : Except FileFault FileTree :=
  files.append (file.resolve files.cwd) []

/-- Writes the records for the file of a journal to it, a line each. -/
def writeLines (j : Journal) (files : FileTree) (line : Record → String) (records : List Record) :
    Except FileFault FileTree :=
  match j.destination with
  | none => .ok files
  | some file =>
    let text := String.join ((j.linesFor .file line records).map (· ++ "\n"))
    files.append (file.resolve files.cwd) (Utf8.encode text.toList)

/-- Nothing below the threshold goes anywhere. -/
theorem keeps_eq_false {j : Journal} {sink : Sink} {r : Record}
    (h : r.level.number < j.threshold.number) : j.keeps sink r = false := by
  simp [keeps, accepts, Level.passes, Nat.not_le.mpr h]

end Journal

end BlockSketch.Log
