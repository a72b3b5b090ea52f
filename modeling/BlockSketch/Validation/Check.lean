import BlockSketch.Validation.Issue

/-!
# Checking components

Components are checked in order against a board, each pin in order.  A component of unknown kind or
with the wrong number of pins is not looked at further; a pin that the board lacks is skipped.  Every
other pin counts as taken from then on.
-/

namespace BlockSketch.Validation

/-- The complaints about the pins of one component, and the pins that are taken afterwards.  `types`
are the types still due. -/
def checkPins (board : Board) (taken : List Pin) : List PinType → List Pin → List Complaint × List Pin
  | _, [] => ([], taken)
  | types, pin :: pins =>
    if !board.has pin then
      let (complaints, taken) := checkPins board taken (types.drop 1) pins
      (.unavailable pin board :: complaints, taken)
    else
      let unmodulated : List Complaint :=
        if types.head? = some .pwm && pin.isNumber && !board.hasPwm pin then [.notPwm pin board]
        else []
      let reuse : List Complaint := if pin ∈ taken then [.reused pin] else []
      let (complaints, taken) :=
        checkPins board (if pin ∈ taken then taken else pin :: taken) (types.drop 1) pins
      (unmodulated ++ reuse ++ complaints, taken)

/-- The issues of the components, given the pins that are taken already. -/
def checkFrom (board : Board) (taken : List Pin) : List Component → Except NumeralFault (List Issue)
  | [] => .ok []
  | c :: cs =>
    match c.spec? with
    | none => do
      let rest ← checkFrom board taken cs
      return ⟨c.id, .unknownKind c.kindName⟩ :: rest
    | some spec => do
      let pins ← Pin.readAll c.pins
      if (pins.length : Int) ≠ spec.pinCount then
        let rest ← checkFrom board taken cs
        return ⟨c.id, .pinCount spec pins.length⟩ :: rest
      else
        let (complaints, taken) := checkPins board taken spec.pinTypes pins
        let rest ← checkFrom board taken cs
        return complaints.map (⟨c.id, ·⟩) ++ rest

/-- The issues of the components on a board. -/
def issues (board : Board) (components : List Component) : Except NumeralFault (List Issue) :=
  checkFrom board [] components

/-- The pins of all components, in order. -/
def allPins (components : List Component) : Except NumeralFault (List Pin) :=
  (components.mapM fun c => Pin.readAll c.pins).map List.flatten

/-- How many different pins the components name. -/
def pinCounts (components : List Component) : Except NumeralFault Pin.Counts :=
  (allPins components).map Pin.count

/-- The report on the components on a board. -/
def report (board : Board) (components : List Component) : Except NumeralFault Report := do
  let found ← issues board components
  let pins ← pinCounts components
  return ⟨found, components.length, pins⟩

end BlockSketch.Validation
