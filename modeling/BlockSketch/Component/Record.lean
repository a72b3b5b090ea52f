import BlockSketch.Component.Basic

/-!
# Component records

The form in which documents hold components.  Missing and empty fields have defaults, and scalar
values of the wrong kind are taken by their text.
-/

namespace BlockSketch

/-- What can be wrong with the record of a component. -/
inductive ComponentFault where
  | numeral (fault : NumeralFault)
  /-- A count is neither a number nor a text. -/
  | notNumber (kind : String)
  /-- A count is not a number at all. -/
  | countIsNan
  /-- A count is infinite. -/
  | countIsInfinite
  /-- A count is too large for a list of that length. -/
  | countOutOfRange
  /-- A count is too large for a list of that length to be kept. -/
  | outOfMemory
  /-- A value with items is needed. -/
  | notIterable (kind : String)
  | unknownPinType (name : String)
  deriving DecidableEq, Repr

def ComponentFault.message : ComponentFault → String
  | numeral fault => fault.message
  | notNumber kind =>
    s!"int() argument must be a string, a bytes-like object or a real number, not '{kind}'"
  | countIsNan => "cannot convert float NaN to integer"
  | countIsInfinite => "cannot convert float infinity to integer"
  | countOutOfRange => "cannot fit 'int' into an index-sized integer"
  | outOfMemory => ""
  | notIterable kind => s!"'{kind}' object is not iterable"
  | unknownPinType name => s!"{Text.quoted name} is not a valid PinType"

/-- Whether the fault lies in the amount of a count alone: such a fault is not one of form. -/
def ComponentFault.isOverflow : ComponentFault → Bool
  | countIsInfinite => true
  | countOutOfRange => true
  | outOfMemory => true
  | _ => false

/-- Whether the fault is a value of the wrong kind. -/
def ComponentFault.isKindMismatch : ComponentFault → Bool
  | notNumber _ => true
  | notIterable _ => true
  | _ => false

namespace Document

/-- The whole number that a value denotes; fractions are cut off. -/
def toInt : Document → Except ComponentFault Int
  | bool b => .ok (if b then 1 else 0)
  | int n => .ok n
  | float .nan => .error .countIsNan
  | float (.infinity _) => .error .countIsInfinite
  | float x => .ok (x.truncate?.getD 0)
  | text s => (Numeral.read s).mapError .numeral
  | bytes b =>
    let cs := b.map fun x => if x < 128 then Char.ofNat x.toNat else '?'
    (Numeral.read (String.ofList cs)).mapError .numeral
  | d => .error (.notNumber d.kindName)

/-- The items of a value: of a list its items, of a mapping its keys, of a text its characters. -/
def items : Document → Except ComponentFault (List Document)
  | list xs => .ok xs
  | map es => .ok (es.map Prod.fst)
  | row xs => .ok xs
  | keys xs => .ok xs
  | text s => .ok (s.toList.map fun c => .text (String.ofList [c]))
  | bytes b => .ok (b.map fun x => .int x.toNat)
  | d => .error (.notIterable d.kindName)

end Document

namespace CustomPart

/-- A custom part needs some block; this one stands in if none is named. -/
def defaultBlocks : List String := ["Custom Block"]

/-- The greatest length of a list, and its negative bound. -/
def lengthBound : Int := powerOfTwo 63

/-- The least length of a list that cannot be kept. -/
def memoryBound : Int := powerOfTwo 31

/-- As many digital pins as the count says. -/
def digitalPins (count : Int) : Except ComponentFault (List PinType) :=
  if lengthBound ≤ count || count < -lengthBound then .error .countOutOfRange
  else if memoryBound ≤ count then .error .outOfMemory
  else .ok (List.replicate count.toNat .digital)

/-- The pin type that a value names. -/
def pinType (d : Document) : Except ComponentFault PinType :=
  match PinType.ofId? d.shown with
  | some t => .ok t
  | none => .error (.unknownPinType d.shown)

/-- The pin types of a record: those it lists, else digital ones. -/
def readPinTypes (record : Document) (count : Int) : Except ComponentFault (List PinType) := do
  let listed ← ((record.get "customPinTypes").orElse (.list [])).items
  match ← listed.mapM pinType with
  | [] => digitalPins count
  | ts => return ts

/-- The names of the blocks of a record, trimmed; blank ones do not count. -/
def readBlocks (record : Document) : Except ComponentFault (List String) := do
  let listed ← ((record.get "customBlocks").orElse (.list [])).items
  return (listed.map fun d => Text.strip d.shown).filter (!·.isEmpty)

/-- Reads the description of a custom part from its record. -/
def ofRecord (record : Document) : Except ComponentFault CustomPart := do
  let name := ((record.get "customName").orElse
    ((record.get "label").orElse (.text "Custom Component"))).shown
  let count ← ((record.get "customPinCount").orElse (.int 1)).toInt
  let types ← readPinTypes record count
  let named ← readBlocks record
  return {
    name := name
    pinCount := count
    pinTypes := types
    blocks := if named.isEmpty then defaultBlocks else named
    category := ((record.get "customCategory").orElse (.text "Custom")).shown }

end CustomPart

namespace Component

/-- Reads a component from its record.  `fallback` is its identifier if the record has none. -/
def ofRecord (record : Document) (fallback : String) : Except ComponentFault Component := do
  let kind := ((record.get "type").orElse (.text "")).shown
  let base : Component := {
    id := ((record.get "id").orElse (.text fallback)).shown
    kind := .known kind
    pins := match record.get "pins" with
      | .null => ""
      | d => d.shown
    label := if (record.get "label").truthy then some (record.get "label") else none }
  if kind = customKind then
    return { base with kind := .custom (← CustomPart.ofRecord record) }
  else return base

/-- The record of a component. -/
def toRecord (c : Component) : Document :=
  .object (
    [("id", .text c.id), ("type", .text c.kindName), ("pins", .text c.pins)] ++
    (match c.label with
      | some label => [("label", label)]
      | none => []) ++
    match c.kind with
      | .known _ => []
      | .custom p =>
        [("customName", .text p.name), ("customPinCount", .int p.pinCount),
          ("customPinTypes", .list (p.pinTypes.map fun t => .text t.id)),
          ("customBlocks", .list (p.blocks.map .text)), ("customCategory", .text p.category)])

end Component

end BlockSketch
