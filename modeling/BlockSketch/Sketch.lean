import BlockSketch.Program.Build
import BlockSketch.Text.Case
import BlockSketch.Validation.Check

/-!
# Sketches

The source text of a program for a board: a header, a name for every numbered pin, a mode for every
pin, and a loop with the statements of the actions.
-/

namespace BlockSketch

/-- Why a sketch cannot be written. -/
inductive SketchFault where
  | numeral (fault : NumeralFault)
  /-- A label that is no text gives no name; `kind` is the kind of its value. -/
  | labelNotText (kind : String)
  deriving DecidableEq, Repr

def SketchFault.message : SketchFault → String
  | numeral fault => fault.message
  | labelNotText kind => s!"'{kind}' object has no attribute 'upper'"

namespace Sketch

instance : MonadLift (Except NumeralFault) (Except SketchFault) where
  monadLift x := x.mapError .numeral

/-- A statement of the loop. -/
inductive Statement where
  | digitalWrite (pin : Option Int) (high : Bool)
  | delay (duration : Option Int)
  | servoWrite (pin : Option Int) (angle : Option ActionValue)
  | echoNote (pin : Option Int)
  | readEcho (pin : Option Int)
  | readSensor (pin : Option Int)
  | printLine (text : Option ActionValue)
  | conditionNote (condition : Option String)
  | openLoop (count : Option Int)
  | closeLoop
  deriving DecidableEq, Repr

/-- The source text of a statement. -/
def Statement.text : Statement → Except NumeralFault String
  | digitalWrite pin high => do
    let level := if high then "HIGH" else "LOW"
    return s!"digitalWrite({← pinText pin}, {level});"
  | delay duration => do return s!"delay({← numberText duration});"
  | servoWrite pin angle => do
    return s!"analogWrite({← pinText pin}, map({← valueText angle}, 0, 180, 0, 255));"
  | echoNote pin => do return s!"// ultrasonic pulse/echo on pin {← pinText pin}"
  | readEcho pin => do return s!"int distanceEcho = digitalRead({← pinText pin});"
  | readSensor pin => do return s!"int sensorValue = digitalRead({← pinText pin});"
  | printLine t => do return s!"Serial.println(\"{← valueText t}\");"
  | conditionNote condition => .ok s!"// if {condition.getD missingValue}"
  | openLoop count => do
    return s!"for (int i = 0; i < {← numberText count}; i++) \x7b"
  | closeLoop => .ok "\x7d"

/-- A statement at a depth of nesting. -/
structure Placed where
  level : Int
  statement : Statement
  deriving DecidableEq, Repr

/-- The indentation of one level. -/
def indent : String := "  "

/-- The source line of a statement. -/
def Placed.text (p : Placed) : Except NumeralFault String := do
  return Step.repeated indent p.level ++ (← p.statement.text)

/-- The duration of a blink; none or zero stands for one second. -/
def blinkDuration : Option Int → Option Int
  | some 0 => some 1000
  | none => some 1000
  | some d => some d

/-- Whether a value switches a pin on. -/
def switchesOn (value : Option ActionValue) : Bool :=
  value == some (.text "HIGH") || value == some (.text "on")

/-- The statements of an action that sets something. -/
def setting (a : Action) : List Statement :=
  if a.component = some "led" && a.value = some (.text "blink") then
    [.digitalWrite a.pin true, .delay (blinkDuration a.duration),
      .digitalWrite a.pin false, .delay (blinkDuration a.duration)]
  else if a.component = some "servo" then [.servoWrite a.pin a.value]
  else if a.component = some "dc-motor" then
    .digitalWrite a.pin true ::
      if 0 < a.duration.getD 0 then [.delay a.duration, .digitalWrite a.pin false] else []
  else [.digitalWrite a.pin (switchesOn a.value)]

/-- The statements of an action apart from its inner actions. -/
def statements (a : Action) : List Statement :=
  match a.kind with
  | .set => setting a
  | .delay => [.delay a.duration]
  | .read =>
    if a.component = some "ultrasonic" then [.echoNote a.pin, .readEcho a.pin]
    else [.readSensor a.pin]
  | .print => [.printLine a.value]
  | .conditional => [.conditionNote a.condition]
  | .repetition => [.openLoop a.count]

mutual

/-- The placed statements of an action from a level on; a repetition is closed after its inner
actions. -/
def place (level : Int) : Action → List Placed
  | ⟨kind, component, pin, value, duration, condition, count, actions⟩ =>
    (statements ⟨kind, component, pin, value, duration, condition, count, []⟩).map (⟨level, ·⟩) ++
      if kind = .repetition then placeAll (level + 1) actions ++ [⟨level, .closeLoop⟩] else []

/-- The placed statements of several actions in order. -/
def placeAll (level : Int) : List Action → List Placed
  | [] => []
  | a :: rest => place level a ++ placeAll level rest

end

/-- The source lines of an action from a level on. -/
def actionLines (level : Int) (a : Action) : Except NumeralFault (List String) :=
  (place level a).mapM Placed.text

/-- Runs of blanks become single underscores. -/
def joinBlanks : List Char → List Char
  | [] => []
  | c :: s =>
    if Text.isBlank c then
      match s with
      | [] => ['_']
      | d :: _ => if Text.isBlank d then joinBlanks s else '_' :: joinBlanks s
    else c :: joinBlanks s

/-- The name of a pin: the label of the component, or its kind and the place of the pin. -/
def pinName (c : Component) (index : Int) : Except SketchFault String :=
  let named (s : String) := String.ofList (joinBlanks (Text.upper s.toList)) ++ "_PIN"
  match c.label with
  | none => .ok (named s!"{c.kindName}{index + 1}")
  | some (.text s) => .ok (named s)
  | some d => .error (.labelNotText d.kindName)

/-- The pins of a component with their places, from a place on; only numbered pins get a name. -/
def nameLines (c : Component) : Nat → List Pin → Except SketchFault (List String)
  | _, [] => .ok []
  | i, .number n :: pins => do
    let name ← pinName c i
    return s!"#define {name} {n}" :: (← nameLines c (i + 1) pins)
  | i, .name _ :: pins => nameLines c (i + 1) pins

/-- The lines that define the pins of a component. -/
def definitions (c : Component) : Except SketchFault (List String) :=
  match c.spec? with
  | none => .ok []
  | some spec => do
    let pins ← liftM (Pin.readAll c.pins)
    return s!"// {spec.name}: {c.pins}" :: (← nameLines c 0 pins)

/-- The lines that set the modes of the pins of a component. -/
def modeLines (c : Component) : Except NumeralFault (List String) :=
  match c.spec? with
  | none => .ok []
  | some spec => (Pin.readAll c.pins).map fun pins => pins.map fun p =>
    s!"{indent}pinMode({p.shown}, {c.pinMode.text}); // {spec.name}"

/-- The lines of the header comment. -/
def header (board : Board) (day : Date) (components : Nat) (pins : Pin.Counts) : List String :=
  ["/*",
    " * Arduino Code Generated from ArduBlock Pseudocode Generator",
    s!" * Model: {board.profile.name}",
    s!" * Generated: {day.text}",
    s!" * Components: {components}",
    s!" * Digital Pins Used: {pins.digital}",
    s!" * Analog Pins Used: {pins.analog}",
    " */",
    "",
    "// Component Pin Definitions"]

/-- The lines of a whole sketch. -/
def lines (actions : List Action) (components : List Component) (board : Board) (day : Date) :
    Except SketchFault (List String) := do
  let pins ← liftM (Validation.pinCounts components)
  let names ← components.mapM definitions
  let modes ← liftM (components.mapM modeLines)
  let body ← liftM ((placeAll 1 actions).mapM Placed.text)
  return header board day components.length pins ++ names.flatten ++
    ["", "void setup() \x7b", s!"{indent}// Initialize serial communication",
      s!"{indent}Serial.begin(9600);", ""] ++
    modes.flatten ++ ["\x7d", "", "void loop() \x7b"] ++ body ++ ["\x7d"]

/-- The text of a whole sketch; every line ends with a line break. -/
def render (actions : List Action) (components : List Component) (board : Board) (day : Date) :
    Except SketchFault String :=
  (lines actions components board day).map fun ls => "\n".intercalate ls ++ "\n"

end Sketch

end BlockSketch
