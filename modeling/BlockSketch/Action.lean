import BlockSketch.Document.Basic

/-!
# Actions

What a sentence of a prompt asks for.  An action has a kind and details; which details matter depends
on the kind.
-/

namespace BlockSketch

/-- The kinds of actions. -/
inductive ActionKind where
  | set
  | delay
  | repetition
  | conditional
  | read
  | print
  deriving DecidableEq, Repr

namespace ActionKind

def all : List ActionKind := [set, delay, repetition, conditional, read, print]

def id : ActionKind → String
  | set => "set"
  | delay => "delay"
  | repetition => "repeat"
  | conditional => "if"
  | read => "read"
  | print => "print"

def ofId? (s : String) : Option ActionKind := all.find? fun k => k.id == s

end ActionKind

/-- A value to set or to print. -/
inductive ActionValue where
  | text (s : String)
  | number (n : Int)
  deriving DecidableEq, Repr

def ActionValue.toDocument : ActionValue → Document
  | text s => .text s
  | number n => .int n

/-- An action.  Durations are in milliseconds. -/
structure Action where
  kind : ActionKind
  component : Option String := none
  pin : Option Int := none
  value : Option ActionValue := none
  duration : Option Int := none
  condition : Option String := none
  count : Option Int := none
  actions : List Action := []
  deriving Repr

namespace Action

/-- A field that is left out if it has no value. -/
def field {α : Type} (name : String) (f : α → Document) : Option α → List (String × Document)
  | some a => [(name, f a)]
  | none => []

/-- The fields of an action other than its inner actions. -/
def fields (a : Action) : List (String × Document) :=
  [("type", .text a.kind.id)] ++ field "component" .text a.component ++ field "pin" .int a.pin ++
    field "value" ActionValue.toDocument a.value ++ field "duration" .int a.duration ++
    field "condition" .text a.condition ++ field "count" .int a.count

mutual

/-- The record of an action.  Only repetitions show their inner actions. -/
def toRecord : Action → Document
  | ⟨kind, component, pin, value, duration, condition, count, actions⟩ =>
    let outer : List (String × Document) :=
      fields ⟨kind, component, pin, value, duration, condition, count, []⟩
    let inner := toRecords actions
    .object (outer ++ if kind = .repetition then [("actions", .list inner)] else [])

def toRecords : List Action → List Document
  | [] => []
  | a :: rest => toRecord a :: toRecords rest

end

/-- An action done several times. -/
def repeating (count : Int) (a : Action) : Action :=
  { kind := .repetition, count := some count, actions := [a] }

end Action

end BlockSketch
