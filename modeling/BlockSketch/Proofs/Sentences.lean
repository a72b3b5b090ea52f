import BlockSketch.Proofs.Tokens
import BlockSketch.Prompt.Actions

/-! # Sentences of the templates

A request follows one of the templates and asks for one action. Sentences are requests and directives
to repeat; a prompt is written from sentences in any letter case, with separators between them.
-/

namespace BlockSketch.Prompt

open Text

/-- A run of digits short enough to be read as a number. -/
structure Digits where
  chars : List Char
  ne_nil : chars ≠ []
  isDigit : ∀ c ∈ chars, c.isDigit = true
  length_le : chars.length ≤ Numeral.maxDigits

def Digits.value (n : Digits) : Nat := digitsValue n.chars

/-- A word in lower case that does not mention blinking. -/
structure Word where
  chars : List Char
  ne_nil : chars ≠ []
  isPlain : ∀ c ∈ chars, isPlain c = true
  not_blink : ¬ "blink".toList <:+: chars

inductive TimeUnit where
  | ms
  | millisecond
  | milliseconds
  | second
  | seconds
  deriving DecidableEq, Repr

namespace TimeUnit

def text : TimeUnit → String
  | ms => "ms"
  | millisecond => "millisecond"
  | milliseconds => "milliseconds"
  | second => "second"
  | seconds => "seconds"

def isSeconds : TimeUnit → Bool
  | second | seconds => true
  | _ => false

end TimeUnit

inductive MotorVerb where
  | spin
  | start
  | run
  deriving DecidableEq, Repr

def MotorVerb.text : MotorVerb → String
  | spin => "spin"
  | start => "start"
  | run => "run"

inductive DelayVerb where
  | wait
  | delay
  deriving DecidableEq, Repr

def DelayVerb.text : DelayVerb → String
  | wait => "wait"
  | delay => "delay"

inductive Quote where
  | single
  | double
  deriving DecidableEq, Repr

def Quote.char : Quote → Char
  | single => '\''
  | double => '"'

/-! ## Tokens -/

/-- A number and its unit, which may stand in one token. -/
def measured (n : Digits) (apart : Bool) (unit : String) : List (List Char) :=
  if apart then [n.chars, unit.toList] else [n.chars ++ unit.toList]

structure Duration where
  amount : Digits
  /-- Whether a space stands before the unit. -/
  apart : Bool
  unit : TimeUnit

namespace Duration

def tokens (d : Duration) : List (List Char) := measured d.amount d.apart d.unit.text

def milliseconds (d : Duration) : Int := d.amount.value * if d.unit.isSeconds then 1000 else 1

end Duration

def optionalWord (present : Bool) (w : String) : List (List Char) :=
  if present then [w.toList] else []

def onPin : Option Digits → List (List Char)
  | none => []
  | some n => ["on".toList, "pin".toList, n.chars]

def forTime : Option Duration → List (List Char)
  | none => []
  | some d => "for".toList :: d.tokens

/-- A sentence that asks for an action. -/
inductive Request where
  | blink (pin : Option Digits) (time : Option Duration)
  | turn (on : Bool) (word : Word) (pin : Option Digits)
  | servo (pin : Option Digits) (degrees : Digits) (apart : Bool)
  | motor (verb : MotorVerb) (dc : Bool) (pin : Option Digits) (time : Option Duration)
  | delay (verb : DelayVerb) (filler : Bool) (time : Duration)
  | sensor (word : Word) (pin : Option Digits)
  | print (filler : Bool) (quote : Quote) (word : Word) (lcd : Bool)

namespace Request

def tokens : Request → List (List Char)
  | blink pin time => ["blink".toList, "led".toList] ++ onPin pin ++ forTime time
  | turn on word pin => ["turn".toList, (if on then "on" else "off").toList, word.chars] ++ onPin pin
  | servo pin degrees apart =>
    ["set".toList, "servo".toList] ++ onPin pin ++ ["to".toList] ++ measured degrees apart "degrees"
  | motor verb dc pin time =>
    [verb.text.toList] ++ optionalWord dc "dc" ++ ["motor".toList] ++ onPin pin ++ forTime time
  | delay verb filler time => [verb.text.toList] ++ optionalWord filler "for" ++ time.tokens
  | sensor word pin => ["read".toList, word.chars, "sensor".toList] ++ onPin pin
  | print filler quote word lcd =>
    ["print".toList] ++ optionalWord filler "text" ++ [quote.char :: (word.chars ++ [quote.char])] ++
      if lcd then ["on".toList, "lcd".toList] else []

/-- The rule whose template the request follows. -/
def rule : Request → Rule
  | blink .. => .blink
  | turn .. => .turn
  | servo .. => .servo
  | motor .. => .motor
  | delay .. => .delay
  | sensor .. => .sensor
  | print .. => .print

/-- What the request asks for. -/
def action : Request → Action
  | blink pin time => {
      kind := .set, component := some "led", pin := pin.map fun n => n.value,
      value := some (.text "blink"), duration := some ((time.map Duration.milliseconds).getD 1000) }
  | turn on word pin => {
      kind := .set, component := some (String.ofList word.chars), pin := pin.map fun n => n.value,
      value := some (.text (if on then "HIGH" else "LOW")) }
  | servo pin degrees _ => {
      kind := .set, component := some "servo", pin := pin.map fun n => n.value,
      value := some (.number degrees.value) }
  | motor _ _ pin time => {
      kind := .set, component := some "dc-motor", pin := pin.map fun n => n.value,
      value := some (.text "HIGH"), duration := some ((time.map Duration.milliseconds).getD 0) }
  | delay _ _ time => { kind := .delay, duration := some time.milliseconds }
  | sensor word pin => {
      kind := .read, component := some (String.ofList word.chars), pin := pin.map fun n => n.value }
  | print _ _ word _ => {
      kind := .print, component := some "lcd", value := some (.text (String.ofList word.chars)) }

end Request

inductive Sentence where
  | request (r : Request)
  | repetition (count : Digits)

namespace Sentence

def tokens : Sentence → List (List Char)
  | request r => r.tokens
  | repetition n => ["repeat".toList, n.chars, "times".toList]

end Sentence

/-! ## Prompts -/

/-- The text is ASCII and spells the sentence in any letter case. -/
def Spells (x : Sentence) (t : List Char) : Prop :=
  (∀ c ∈ t, c.toNat < 128) ∧ t.map Char.toLower = joined x.tokens

/-- A piece of a prompt: a sentence with blanks around it, or nothing but blanks. -/
inductive Piece : List Sentence → List Char → Prop where
  | blank {l : List Char} : (∀ c ∈ l, isBlank c = true) → Piece [] l
  | sentence {x : Sentence} {l t r : List Char} : (∀ c ∈ l, isBlank c = true) →
      (∀ c ∈ r, isBlank c = true) → Spells x t → Piece [x] (l ++ t ++ r)

/-- A prompt that is written from sentences, with separators between its pieces. -/
inductive Written : List Sentence → List Char → Prop where
  | piece {xs : List Sentence} {s : List Char} : Piece xs s → Written xs s
  | join {xs ys : List Sentence} {s p : List Char} {c : Char} : Piece xs s → isSeparator c = true →
      Written ys p → Written (xs ++ ys) (s ++ c :: p)

/-- The action, repeated if the sentence right before it says so. -/
def repeatedAfter : Option Sentence → Action → Action
  | some (.repetition n), a => if 1 < n.value then Action.repeating n.value a else a
  | _, a => a

/-- What sentences ask for, given the one before them. -/
def performedAfter (before : Option Sentence) : List Sentence → List Action
  | [] => []
  | .request r :: xs => repeatedAfter before r.action :: performedAfter (some (.request r)) xs
  | .repetition n :: xs => performedAfter (some (.repetition n)) xs

/-- What sentences ask for: the action of each request, in order. -/
def performed (xs : List Sentence) : List Action := performedAfter none xs

end BlockSketch.Prompt
