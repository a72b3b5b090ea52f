import BlockSketch.Sketch
import BlockSketch.Text.Scan

/-! # Effects of a program

What a program does in one round of its loop. It is read from the instructions by their levels, and
from a sketch by its lines and braces.
-/

namespace BlockSketch

/-- What a program does, with all values as texts. -/
inductive Effect where
  | setPin (pin value : String)
  | delay (duration : String)
  | turnServo (pin angle : String)
  | readUltrasonic (pin : String)
  | readDigital (pin : String)
  | print (text : String)
  | check (condition : String)
  | repetition (count : String) (body : List Effect)

namespace Effect

open Text

/-! ## Texts with gaps -/

/-- What stands between a beginning and an end of the text. -/
def between? (lead tail s : List Char) : Option (List Char) := do
  let r ← after? lead s
  let m ← after? tail.reverse r.reverse
  return m.reverse

/-- What stands before and after the first place of a separator. -/
def cut? (sep : List Char) : List Char → Option (List Char × List Char)
  | [] => (after? sep []).map fun r => ([], r)
  | c :: s =>
    match after? sep (c :: s) with
    | some r => some ([], r)
    | none => (cut? sep s).map fun (a, b) => (c :: a, b)

variable {α : Type}

/-- Reads a text with one gap. -/
def one? (lead tail : String) (f : String → α) (s : List Char) : Option α :=
  (between? lead.toList tail.toList s).map fun m => f (String.ofList m)

/-- Reads a text with two gaps; the first one ends where the separator first occurs. -/
def two? (lead sep tail : String) (f : String → String → α) (s : List Char) : Option α := do
  let m ← between? lead.toList tail.toList s
  let (a, b) ← cut? sep.toList m
  return f (String.ofList a) (String.ofList b)

/-! ## Instructions -/

/-- The effect of a step; a repetition has no body yet. -/
def ofStep? (s : Step) : Option Effect :=
  let t := s.text.toList
  match s.block with
  | some "Set Digital Pin" => two? "Add Set Digital Pin block for pin " " to " "" setPin t
  | some "Delay" => one? "Add Delay block for " " ms" delay t
  | some "Servo Write" => two? "Add Servo Write block for pin " " to " " degrees" turnServo t
  | some "Ultrasonic Read" =>
    one? "Add Ultrasonic Read block for sensor on pin " "" readUltrasonic t
  | some "Digital Read" => one? "Add Digital Read block for pin " "" readDigital t
  | some "LCD Print" => one? "Add LCD Print block with text \"" "\"" print t
  | some "If" => one? "Add If block with condition \"" "\"" check t
  | some "Repeat" => one? "Add Repeat block for " " times" (fun n => repetition n []) t
  | _ => none

/-- Gives every repetition the deeper effects that follow it as its body. -/
def nest : List (Int × Effect) → List (Int × Effect)
  | [] => []
  | (level, .repetition n _) :: es =>
    let rest := nest es
    (level, .repetition n ((rest.takeWhile (level < ·.1)).map Prod.snd)) ::
      rest.dropWhile (level < ·.1)
  | e :: es => e :: nest es

/-- The effects of the steps that follow the step of the loop. -/
def ofSteps? (steps : List Step) : Option (List Effect) := do
  let body := (steps.dropWhile (·.block ≠ some "Loop")).drop 1
  let es ← body.mapM fun s => (ofStep? s).map fun e => (s.level, e)
  return (nest es).map Prod.snd

/-! ## Sketches -/

/-- What a line of a loop says. -/
inductive Mark where
  | effect (e : Effect)
  /-- The comment before an echo is read. -/
  | note (pin : String)
  | echo (pin : String)
  | opening (count : String)
  | closing

/-- The forms of lines. -/
def forms : List (List Char → Option Mark) := [
  two? "digitalWrite(" ", " ");" fun p v => .effect (setPin p v),
  one? "delay(" ");" fun d => .effect (delay d),
  two? "analogWrite(" ", map(" ", 0, 180, 0, 255));" fun p d => .effect (turnServo p d),
  one? "// ultrasonic pulse/echo on pin " "" .note,
  one? "int distanceEcho = digitalRead(" ");" .echo,
  one? "int sensorValue = digitalRead(" ");" fun p => .effect (readDigital p),
  one? "Serial.println(\"" "\");" fun t => .effect (print t),
  one? "// if " "" fun c => .effect (check c),
  one? "for (int i = 0; i < " "; i++) \x7b" .opening,
  one? "\x7d" "" fun _ => .closing]

/-- Reads a line without its indentation. -/
def mark? (line : List Char) : Option Mark :=
  forms.findSome? fun f => f (line.dropWhile (· == ' '))

/-- The effects of marks, given the repetitions that are open with the effects before each, and the
effects of the innermost block so far. -/
def gather (outer : List (String × List Effect)) (done : List Effect) :
    List Mark → Option (List Effect)
  | [] => if outer.isEmpty then some done else none
  | .effect e :: ms => gather outer (done ++ [e]) ms
  | .note p :: .echo q :: ms => if p = q then gather outer (done ++ [readUltrasonic p]) ms else none
  | .opening n :: ms => gather ((n, done) :: outer) [] ms
  | .closing :: ms =>
    match outer with
    | (n, before) :: outer => gather outer (before ++ [repetition n done]) ms
    | [] => none
  | _ => none

/-- The lines between the last line that opens the loop and the brace in the last line. -/
def loopLines? (sketch : String) : Option (List (List Char)) :=
  match (Pin.pieces (· == '\n') sketch.toList).reverse with
  | [] :: ['}'] :: before =>
    some (before.takeWhile (· ≠ "void loop() \x7b".toList)).reverse
  | _ => none

/-- The effects of the loop of a sketch. -/
def ofSketch? (sketch : String) : Option (List Effect) := do
  let lines ← loopLines? sketch
  let marks ← lines.mapM mark?
  gather [] [] marks

end Effect

end BlockSketch
