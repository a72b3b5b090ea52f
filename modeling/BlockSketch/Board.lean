import BlockSketch.Document.Text
import BlockSketch.Pin
import BlockSketch.Text.Case

/-!
# Boards

The boards that programs can be made for, with the pins that each one offers.
-/

namespace BlockSketch

/-- A target board. -/
inductive Board where
  | uno
  | mega
  | esp32
  deriving DecidableEq, Repr, Inhabited

namespace Board

/-- The pins of a board, and what is said about it. -/
structure Profile where
  name : String
  digitalPins : List Nat
  analogPins : List String
  pwmPins : List Nat
  description : String

/-- All boards, in the order of listings. -/
def all : List Board := [uno, mega, esp32]

/-- The board that is used when none is chosen. -/
def standard : Board := uno

/-- The short name of a board. -/
def id : Board → String
  | uno => "uno"
  | mega => "mega"
  | esp32 => "esp32"

/-- The names `A0`, `A1`, … of `n` analog pins. -/
def analogNames (n : Nat) : List String := (List.range n).map fun i => s!"A{i}"

/-- What a board offers. -/
def profile : Board → Profile
  | uno => ⟨"Arduino Uno", List.range 14, analogNames 6, [3, 5, 6, 9, 10, 11], "14 Digital, 6 Analog"⟩
  | mega =>
    ⟨"Arduino Mega", List.range 54, analogNames 16, (List.range 14).drop 2, "54 Digital, 16 Analog"⟩
  | esp32 => ⟨"ESP32", List.range 40, analogNames 20, List.range 16, "WiFi + Bluetooth"⟩

/-- Whether the board has the pin. -/
def has (b : Board) : Pin → Bool
  | .number n => b.profile.digitalPins.any fun d => (d : Int) == n
  | .name s => b.profile.analogPins.contains s

/-- Whether the pin is a number at which the board can modulate pulse widths. -/
def hasPwm (b : Board) : Pin → Bool
  | .number n => b.profile.pwmPins.any fun d => (d : Int) == n
  | .name _ => false

/-- The board with the given short name. -/
def ofId? (s : String) : Option Board := all.find? fun b => b.id == s

/-- The board that a text names, in any letter case and with blanks around it. -/
def named? (s : String) : Option Board := ofId? (Text.lowercase (Text.strip s))

/-- The board that a value names; the error is the name that no board has. -/
def read (d : Document) : Except String Board :=
  match d with
  | .null => .ok standard
  | d =>
    match named? d.shown with
    | some b => .ok b
    | none => .error d.shown

theorem ofId?_id (b : Board) : ofId? b.id = some b := by cases b <;> decide

theorem read_id (b : Board) : read (.text b.id) = .ok b := by cases b <;> rfl

end Board

end BlockSketch
