import BlockSketch.Action
import BlockSketch.Number.Numeral
import BlockSketch.Prompt.Template

/-!
# Rules

A rule turns a sentence that follows one template into an action.  Rules are tried in a fixed order
and the first one that applies counts, so `blink the led` is never taken for something else.
-/

namespace BlockSketch.Prompt

open Text

/-- How long each half of a blink lasts if nothing is said. -/
def standardBlink : Int := 1000

/-- A number of units in milliseconds; units that start with `s` are seconds. -/
def toMilliseconds (value : Int) (unit : Option String) : Int :=
  if ((unit.getD "").toList.head? = some 's') then value * 1000 else value

/-- The milliseconds of a duration. -/
def Span.milliseconds (t : Span) : Except NumeralFault Int := do
  let n ← Numeral.ofDigits t.digits
  return if t.seconds then (n : Int) * 1000 else n

/-- The number that optional digits denote; no digits denote none. -/
def optionalNumber : Option (List Char) → Except NumeralFault (Option Int)
  | none => .ok none
  | some [] => .ok none
  | some ds => (Numeral.ofDigits ds).map fun n => some (n : Int)

/-- The rules, by the name of their template. -/
inductive Rule where
  | blink
  | turn
  | servo
  | motor
  | delay
  | sensor
  | print
  | conditional
  deriving DecidableEq, Repr

namespace Rule

/-- The rules in the order in which they are tried. -/
def all : List Rule := [blink, turn, servo, motor, delay, sensor, print, conditional]

def id : Rule → String
  | blink => "blink"
  | turn => "turn"
  | servo => "servo"
  | motor => "motor"
  | delay => "delay"
  | sensor => "sensor"
  | print => "print"
  | conditional => "if"

def ofId? (s : String) : Option Rule := all.find? fun r => r.id == s

end Rule

/-- `blink` and `led` anywhere; a pin and a duration anywhere. -/
def blink (s : List Char) : Except NumeralFault (Option Action) :=
  if !occurs "blink".toList s || !occurs "led".toList s then .ok none
  else do
    let duration ← match search span? s with
      | some t => t.milliseconds
      | none => pure standardBlink
    let pin ← optionalNumber ((search pinAfterWord? s).map Prod.fst)
    return some {
      kind := .set, component := some "led", pin := pin, value := some (.text "blink"),
      duration := some duration }

def turn (s : List Char) : Except NumeralFault (Option Action) :=
  match search turnAt? s with
  | none => .ok none
  | some t => do
    let pin ← optionalNumber t.pin
    return some {
      kind := .set, component := some (String.ofList t.word), pin := pin,
      value := some (.text (if t.on then "HIGH" else "LOW")) }

def servo (s : List Char) : Except NumeralFault (Option Action) :=
  match search servoAt? s with
  | none => .ok none
  | some t => do
    let pin ← optionalNumber t.pin
    let degrees ← Numeral.ofDigits t.degrees
    return some {
      kind := .set, component := some "servo", pin := pin, value := some (.number degrees) }

def motor (s : List Char) : Except NumeralFault (Option Action) :=
  match search motorAt? s with
  | none => .ok none
  | some t => do
    let duration ← match t.span with
      | some t => t.milliseconds
      | none => pure 0
    let pin ← optionalNumber t.pin
    return some {
      kind := .set, component := some "dc-motor", pin := pin, value := some (.text "HIGH"),
      duration := some duration }

def delay (s : List Char) : Except NumeralFault (Option Action) :=
  match search delayAt? s with
  | none => .ok none
  | some t => do
    let duration ← t.milliseconds
    return some { kind := .delay, duration := some duration }

def sensor (s : List Char) : Except NumeralFault (Option Action) :=
  match search sensorAt? s with
  | none => .ok none
  | some t => do
    let pin ← optionalNumber t.pin
    return some { kind := .read, component := some (String.ofList t.word), pin := pin }

def print (s : List Char) : Except NumeralFault (Option Action) :=
  .ok ((search printAt? s).map fun t =>
    { kind := .print, component := some "lcd", value := some (.text (String.ofList t)) })

def conditional (s : List Char) : Except NumeralFault (Option Action) :=
  .ok ((search ifAt? s).map fun t => { kind := .conditional, condition := some (String.ofList t) })

/-- What the rule makes of a sentence; `none` if it does not apply. -/
def Rule.apply : Rule → List Char → Except NumeralFault (Option Action)
  | blink => Prompt.blink
  | turn => Prompt.turn
  | servo => Prompt.servo
  | motor => Prompt.motor
  | delay => Prompt.delay
  | sensor => Prompt.sensor
  | print => Prompt.print
  | conditional => Prompt.conditional

/-- The first rule of a list that applies, with its action. -/
def firstOf (s : List Char) : List Rule → Except NumeralFault (Option (Rule × Action))
  | [] => .ok none
  | r :: rs => do
    match ← r.apply s with
    | some a => return some (r, a)
    | none => firstOf s rs

/-- The action of a sentence in lower case, and the rule it comes from. -/
def sentence (s : List Char) : Except NumeralFault (Option (Rule × Action)) := firstOf s Rule.all

end BlockSketch.Prompt
