import BlockSketch.Program.Instruction

/-!
# Building programs

A program has a header, a mode for every declared pin, and a loop with the instructions of the
actions, where inner actions of a repetition are one level deeper.
-/

namespace BlockSketch.Program

/-- The mode instructions of one component; none if its kind is unknown. -/
def pinModes (c : Component) : Except NumeralFault (List Line) :=
  match c.spec? with
  | none => .ok []
  | some spec =>
    (Pin.readAll c.pins).map fun pins => pins.map fun p => ⟨1, .pinMode spec.name p c.pinMode⟩

/-- The header and the modes of all pins. -/
def setup (components : List Component) : Except NumeralFault (List Line) := do
  let modes ← components.mapM pinModes
  return [⟨0, .program⟩, ⟨0, .setup⟩] ++ modes.flatten

/-- The instructions of an action that sets something. -/
def setting (a : Action) : List Instruction :=
  if a.component = some "led" && a.value = some (.text "blink") then
    [.setDigitalPin a.pin (some (.text "HIGH")), .delay a.duration,
      .setDigitalPin a.pin (some (.text "LOW")), .delay a.duration]
  else if a.component = some "servo" then [.servoWrite a.pin a.value]
  else if a.component = some "dc-motor" then
    .setDigitalPin a.pin a.value ::
      if 0 < a.duration.getD 0 then [.delay a.duration, .setDigitalPin a.pin (some (.text "LOW"))]
      else []
  else [.setDigitalPin a.pin a.value]

/-- The instructions of an action apart from its inner actions. -/
def instructions (a : Action) : List Instruction :=
  match a.kind with
  | .set => setting a
  | .delay => [.delay a.duration]
  | .read =>
    if a.component = some "ultrasonic" then [.ultrasonicRead a.pin] else [.digitalRead a.pin]
  | .print => [.lcdPrint a.value]
  | .conditional => [.conditional a.condition]
  | .repetition => [.repetition a.count]

mutual

/-- The lines of an action from a level on. -/
def expand (level : Int) : Action → List Line
  | ⟨kind, component, pin, value, duration, condition, count, actions⟩ =>
    (instructions ⟨kind, component, pin, value, duration, condition, count, []⟩).map (⟨level, ·⟩) ++
      if kind = .repetition then expandAll (level + 1) actions else []

/-- The lines of several actions in order. -/
def expandAll (level : Int) : List Action → List Line
  | [] => []
  | a :: rest => expand level a ++ expandAll level rest

end

/-- The lines of a whole program. -/
def build (actions : List Action) (components : List Component) : Except NumeralFault (List Line) := do
  return (← setup components) ++ ⟨0, .loop⟩ :: expandAll 1 actions

/-- The steps of a whole program. -/
def steps (actions : List Action) (components : List Component) : Except NumeralFault (List Step) := do
  (← build actions components).mapM Line.step

end BlockSketch.Program
