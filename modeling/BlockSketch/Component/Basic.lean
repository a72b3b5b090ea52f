import BlockSketch.Document.Text

/-!
# Components

Hardware parts that a project declares: parts of a known kind, described by the catalogue, and custom
parts that carry their own description.
-/

namespace BlockSketch

/-- What a pin of a part is used for. -/
inductive PinType where
  | digital
  | analog
  | pwm
  deriving DecidableEq, Repr

namespace PinType

def all : List PinType := [digital, analog, pwm]

def id : PinType → String
  | digital => "digital"
  | analog => "analog"
  | pwm => "pwm"

def ofId? (s : String) : Option PinType := all.find? fun t => t.id == s

@[simp]
theorem ofId?_id (t : PinType) : ofId? t.id = some t := by cases t <;> decide

end PinType

/-- The description of a kind of part.  The pin count is what a declaration must supply; it may differ
from the number of pin types. -/
structure Spec where
  name : String
  pinTypes : List PinType
  pinCount : Int
  blocks : List String
  category : String
  pinLabels : Option (List String)
  deriving DecidableEq, Repr

namespace Spec

/-- Labels of the pins, if there are any. -/
def labels (s : Spec) : List String := s.pinLabels.getD []

/-- Pin numbers from 2 on, each after its label. -/
def labelledPins (labels : List String) : String :=
  ",".intercalate (labels.mapIdx fun i label => s!"{label}:{i + 2}")

/-- The pin specification that a new part of the kind starts with. -/
def defaultPins (kind : String) (s : Spec) : String :=
  if s.pinCount = 1 then
    if kind = "servo" then "9" else if kind = "button" then "2" else "13"
  else if s.labels.isEmpty then
    ",".intercalate ((List.range s.pinCount.toNat).map fun i => toString (i + 2))
  else labelledPins s.labels

end Spec

/-- The kinds of parts that are known, in the order of listings. -/
def catalogue : List (String × Spec) :=
  [("led", ⟨"LED", [.digital], 1, ["Pin Mode", "Set Digital Pin"], "Input/Output", none⟩),
    ("servo", ⟨"Servo Motor", [.pwm], 1, ["Servo Write", "Servo Read"], "Servo", none⟩),
    ("dc-motor",
      ⟨"DC Motor", [.digital, .pwm], 1, ["Set Digital Pin", "Analog Write"], "Input/Output", none⟩),
    ("ultrasonic",
      ⟨"Ultrasonic Sensor (HC-SR04)", [.digital, .digital], 2, ["Ultrasonic Read"], "Sensors",
        some ["trig", "echo"]⟩),
    ("button", ⟨"Button", [.digital], 1, ["Digital Read", "Pin Mode"], "Input/Output", none⟩),
    ("lcd",
      ⟨"LCD 1602", List.replicate 6 .digital, 6, ["LCD Print", "LCD Clear", "LCD Set Cursor"],
        "Display", some ["rs", "enable", "d4", "d5", "d6", "d7"]⟩),
    ("buzzer", ⟨"Buzzer", [.digital], 1, ["Set Digital Pin", "Tone"], "Sound", none⟩),
    ("stepper",
      ⟨"Stepper Motor", List.replicate 4 .digital, 4, ["Stepper Step", "Stepper Speed"], "Motor",
        some ["in1", "in2", "in3", "in4"]⟩)]

/-- The description of a known kind. -/
def Spec.ofKind? (kind : String) : Option Spec := catalogue.lookup kind

/-- Prompts to start from, each with a name. -/
def examplePrompts : List (String × String) :=
  [("blink", "Blink LED on pin 13 every 1 second"),
    ("servo", "Set servo on pin 9 to 90 degrees, wait 1 second, then to 0 degrees"),
    ("sensor", "Read ultrasonic sensor on pins 7,8 and if distance < 10cm turn on LED on pin 13"),
    ("conditional", "If button on pin 2 is pressed, turn on LED on pin 13 and buzzer on pin 12")]

/-- The description that a custom part carries. -/
structure CustomPart where
  name : String
  pinCount : Int
  pinTypes : List PinType
  blocks : List String
  category : String
  deriving DecidableEq, Repr

/-- A part is of a kind by name, or custom. -/
inductive PartKind where
  | known (name : String)
  | custom (part : CustomPart)
  deriving DecidableEq, Repr

/-- A declared part.  Its label, if any, is whatever value the declaration gave that counts as
present. -/
structure Component where
  id : String
  kind : PartKind
  pins : String
  label : Option Document

/-- Which way a pin is driven. -/
inductive PinMode where
  | input
  | output
  deriving DecidableEq, Repr

def PinMode.text : PinMode → String
  | .input => "INPUT"
  | .output => "OUTPUT"

namespace Component

/-- The name of the kind of custom parts. -/
def customKind : String := "custom"

/-- The name of the kind. -/
def kindName (c : Component) : String :=
  match c.kind with
  | .known name => name
  | .custom _ => customKind

def isCustom (c : Component) : Bool :=
  match c.kind with
  | .known _ => false
  | .custom _ => true

/-- The description of the part; `none` if its kind is unknown. -/
def spec? (c : Component) : Option Spec :=
  match c.kind with
  | .known name => Spec.ofKind? name
  | .custom p => some ⟨p.name, p.pinTypes, p.pinCount, p.blocks, p.category, none⟩

/-- Buttons are read, everything else is driven. -/
def pinMode (c : Component) : PinMode := if c.kindName = "button" then .input else .output

/-- The part with another label; a value that does not count as present removes the label. -/
def withLabel (c : Component) (label : Document) : Component :=
  { c with label := if label.truthy then some label else none }

end Component

end BlockSketch
