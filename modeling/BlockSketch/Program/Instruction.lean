import BlockSketch.Action
import BlockSketch.Component.Basic
import BlockSketch.Number.Numeral
import BlockSketch.Pin

/-!
# Instructions

The instructions of a block program.  Each one adds one block, which has a name, a kind and a sentence
that says what to do.
-/

namespace BlockSketch

/-- What a block is for. -/
inductive StepKind where
  | frame
  | action
  | control
  deriving DecidableEq, Repr

namespace StepKind

def all : List StepKind := [frame, action, control]

def id : StepKind → String
  | frame => "structure"
  | action => "action"
  | control => "control"

def ofId? (s : String) : Option StepKind := all.find? fun k => k.id == s

end StepKind

/-- An instruction.  Missing pins and numbers stay missing until the sentence is written. -/
inductive Instruction where
  | program
  | setup
  | loop
  | pinMode (part : String) (pin : Pin) (mode : PinMode)
  | setDigitalPin (pin : Option Int) (value : Option ActionValue)
  | delay (duration : Option Int)
  | servoWrite (pin : Option Int) (angle : Option ActionValue)
  | ultrasonicRead (pin : Option Int)
  | digitalRead (pin : Option Int)
  | lcdPrint (text : Option ActionValue)
  | conditional (condition : Option String)
  | repetition (count : Option Int)
  deriving DecidableEq, Repr

/-- The word for a value that is missing. -/
def missingValue : String := "None"

/-- The sign for a pin that is missing. -/
def missingPin : String := "?"

/-- The text of a number that may be missing. -/
def numberText : Option Int → Except NumeralFault String
  | none => .ok missingValue
  | some n => Numeral.write n

/-- The text of a pin number that may be missing. -/
def pinText : Option Int → Except NumeralFault String
  | none => .ok missingPin
  | some n => Numeral.write n

/-- The text of a value that may be missing. -/
def valueText : Option ActionValue → Except NumeralFault String
  | none => .ok missingValue
  | some (.text s) => .ok s
  | some (.number n) => Numeral.write n

namespace Instruction

/-- The name of the block. -/
def block : Instruction → String
  | program => "Program"
  | setup => "Setup"
  | loop => "Loop"
  | pinMode .. => "Pin Mode"
  | setDigitalPin .. => "Set Digital Pin"
  | delay _ => "Delay"
  | servoWrite .. => "Servo Write"
  | ultrasonicRead _ => "Ultrasonic Read"
  | digitalRead _ => "Digital Read"
  | lcdPrint _ => "LCD Print"
  | conditional _ => "If"
  | repetition _ => "Repeat"

/-- What the block is for. -/
def stepKind : Instruction → StepKind
  | program => .frame
  | setup => .frame
  | loop => .frame
  | conditional _ => .control
  | repetition _ => .control
  | _ => .action

/-- The sentence of an instruction; it cannot be written if a number in it is too long. -/
def text : Instruction → Except NumeralFault String
  | program => .ok "Add Program block"
  | setup => .ok "Add Setup block"
  | loop => .ok "Add Loop block (repeat forever)"
  | pinMode part pin mode =>
    .ok s!"Add Pin Mode block for {part} on pin {pin.shown} to {mode.text}"
  | setDigitalPin pin value => do
    return s!"Add Set Digital Pin block for pin {← pinText pin} to {← valueText value}"
  | delay duration => do return s!"Add Delay block for {← numberText duration} ms"
  | servoWrite pin angle => do
    return s!"Add Servo Write block for pin {← pinText pin} to {← valueText angle} degrees"
  | ultrasonicRead pin => do
    return s!"Add Ultrasonic Read block for sensor on pin {← pinText pin}"
  | digitalRead pin => do return s!"Add Digital Read block for pin {← pinText pin}"
  | lcdPrint t => do return s!"Add LCD Print block with text \"{← valueText t}\""
  | conditional condition =>
    .ok s!"Add If block with condition \"{condition.getD missingValue}\""
  | repetition count => do return s!"Add Repeat block for {← numberText count} times"

end Instruction

/-- An instruction at a depth of nesting. -/
structure Line where
  level : Int
  instruction : Instruction
  deriving DecidableEq, Repr

/-- A written instruction. -/
structure Step where
  level : Int
  text : String
  kind : StepKind
  block : Option String
  deriving DecidableEq, Repr

namespace Step

def toRecord (s : Step) : Document :=
  .object ([("level", .int s.level), ("text", .text s.text), ("type", .text s.kind.id)] ++
    match s.block with
    | some b => [("blockType", .text b)]
    | none => [])

/-- A text `n` times; none if `n` is negative. -/
def repeated (s : String) (n : Int) : String := String.join (List.replicate n.toNat s)

/-- Steps as text, one a line, indented by level. -/
def render (indent : String) (steps : List Step) : String :=
  "\n".intercalate (steps.map fun s => repeated indent s.level ++ s.text)

end Step

/-- Writes an instruction. -/
def Line.step (l : Line) : Except NumeralFault Step := do
  return ⟨l.level, ← l.instruction.text, l.instruction.stepKind, some l.instruction.block⟩

end BlockSketch
