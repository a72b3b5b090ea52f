import BlockSketch.Document.Text
import BlockSketch.Text.Case

/-!
# Log records

Records of what a program does, graded by importance, and their lines: plain, coloured for a terminal,
or with the details of a request.
-/

namespace BlockSketch.Log

/-- How important a record is. -/
inductive Level where
  | unset
  | debug
  | info
  | warning
  | error
  | critical
  deriving DecidableEq, Repr, Inhabited

namespace Level

def number : Level → Nat
  | unset => 0
  | debug => 10
  | info => 20
  | warning => 30
  | error => 40
  | critical => 50

def name : Level → String
  | unset => "NOTSET"
  | debug => "DEBUG"
  | info => "INFO"
  | warning => "WARNING"
  | error => "ERROR"
  | critical => "CRITICAL"

def all : List Level := [unset, debug, info, warning, error, critical]

/-- The level of a name in capitals; two levels have a second name. -/
def ofName? (s : String) : Option Level :=
  if s = "WARN" then some warning
  else if s = "FATAL" then some critical
  else all.find? fun l => l.name == s

/-- Whether a record of the level is kept where the threshold is set. -/
def passes (l threshold : Level) : Bool := threshold.number ≤ l.number

@[simp]
theorem ofName?_name (l : Level) : ofName? l.name = some l := by cases l <;> decide

theorem passes_unset (l : Level) : l.passes unset = true := by cases l <;> decide

end Level

/-- A record: who says what, and details by name. -/
structure Record where
  logger : String
  level : Level
  message : String
  details : List (String × Document) := []

/-- What a record always has; its details may not go by these names. -/
def ownFields : List String :=
  ["message", "asctime", "name", "msg", "args", "levelname", "levelno", "pathname", "filename", "module",
    "exc_info", "exc_text", "stack_info", "lineno", "funcName", "created", "msecs", "relativeCreated",
    "thread", "threadName", "processName", "process"]

/-- The first detail of a record that goes by the name of a field that it has already. -/
def Record.clash? (r : Record) : Option String :=
  (r.details.map Prod.fst).find? ownFields.contains

/-- What is said of such a detail. -/
def clashMessage (name : String) : String :=
  Text.quoted s!"Attempt to overwrite {Text.quoted name} in LogRecord"

/-- Level, logger and message. -/
def body (level logger message : String) : String := s!"{level} {logger}: {message}"

/-- The details that lines show, in their order. -/
def shownDetails : List String := ["trace_id", "event", "method", "path", "status", "duration_ms"]

/-- Whether a detail is worth showing. -/
def hasContent : Document → Bool
  | .null => false
  | .text s => !s.isEmpty
  | _ => true

/-- The details of a record as names and values; absent and empty ones are left out. -/
def detailsText (details : List (String × Document)) : String :=
  String.join <| shownDetails.filterMap fun key =>
    match details.lookup key with
    | some d => if hasContent d then some s!" {key}={d.shown}" else none
    | none => none

/-- The colour of a level on a terminal; unknown levels have none. -/
def colourOf (level : String) : Option String :=
  [("DEBUG", "36"), ("INFO", "32"), ("WARNING", "33"), ("ERROR", "31"), ("CRITICAL", "1;31")].lookup
    level

/-- A text in a colour. -/
def inColour (colour text : String) : String := s!"\x1b[{colour}m{text}\x1b[0m"

/-- The line on a console, coloured if it is a terminal and the level has a colour. -/
def consoleLine (terminal : Bool) (level logger message : String) : String :=
  let line := body level logger message
  match colourOf level with
  | some colour => if terminal then inColour colour line else line
  | none => line

/-- The line in a file after a time stamp. -/
def fileLine (stamp level logger message : String) : String := s!"{stamp} {body level logger message}"

/-- The line of a service, which has the details of the request. -/
def serviceLine (stamp level logger message : String) (details : List (String × Document)) : String :=
  fileLine stamp level logger message ++ detailsText details

namespace Record

/-- The line in a file after a time stamp. -/
def fileLine (stamp : String) (r : Record) : String :=
  Log.fileLine stamp r.level.name r.logger r.message

/-- The line on a console. -/
def consoleLine (terminal : Bool) (r : Record) : String :=
  Log.consoleLine terminal r.level.name r.logger r.message

/-- The line of a service after a time stamp. -/
def serviceLine (stamp : String) (r : Record) : String :=
  Log.serviceLine stamp r.level.name r.logger r.message r.details

end Record

/-- The records that a threshold keeps. -/
def keep (threshold : Level) (records : List Record) : List Record :=
  records.filter fun r => r.level.passes threshold

theorem mem_keep {threshold : Level} {records : List Record} {r : Record} :
    r ∈ keep threshold records ↔ r ∈ records ∧ threshold.number ≤ r.level.number := by
  simp [keep, Level.passes]

end BlockSketch.Log
