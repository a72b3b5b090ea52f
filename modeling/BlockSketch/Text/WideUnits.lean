import BlockSketch.Text.Utf8

/-!
# Units of several bytes

Texts whose units have two or four bytes, in either order.  The place of zero bytes at the front tells
these apart from texts in units of one byte, if the text starts with ASCII characters.
-/

namespace BlockSketch.Text

/-- How wide units are, in bytes, and whether the first byte of a unit is the highest. -/
structure UnitForm where
  width : Nat
  highFirst : Bool
  deriving DecidableEq, Repr

/-- The form of the units of a text that starts with ASCII characters. -/
def UnitForm.guess (bytes : List UInt8) : UnitForm :=
  match bytes with
  | a :: b :: c :: d :: _ =>
    if a == 0 then (if b == 0 then ⟨4, true⟩ else ⟨2, true⟩)
    else if b == 0 then (if c == 0 && d == 0 then ⟨4, false⟩ else ⟨2, false⟩)
    else ⟨1, true⟩
  | [a, b] => if a == 0 then ⟨2, true⟩ else if b == 0 then ⟨2, false⟩ else ⟨1, true⟩
  | _ => ⟨1, true⟩

/-- The number that some bytes make, the highest first. -/
def unitValue (bytes : List UInt8) : Nat := bytes.foldl (fun n b => 256 * n + b.toNat) 0

/-- The units of some bytes; `none` if the last unit is cut off.  The fuel bounds their number. -/
def units? (form : UnitForm) : (fuel : Nat) → List UInt8 → Option (List Nat)
  | _, [] => some []
  | 0, _ => none
  | fuel + 1, bytes =>
    let unit := bytes.take form.width
    if unit.length < form.width then none
    else (units? form fuel (bytes.drop form.width)).map
      (unitValue (if form.highFirst then unit else unit.reverse) :: ·)

/-- The codes of units of two bytes: a high and a low surrogate make one code. -/
def joinSurrogates : List Nat → List Nat
  | high :: low :: rest =>
    if 0xD800 ≤ high && high ≤ 0xDBFF && 0xDC00 ≤ low && low ≤ 0xDFFF then
      (0x10000 + (high - 0xD800) * 0x400 + (low - 0xDC00)) :: joinSurrogates rest
    else high :: joinSurrogates (low :: rest)
  | rest => rest

/-- The characters of a text, whatever the form of its units; `none` if some bytes are no character. -/
def decodeUnits? (bytes : List UInt8) : Option (List Char) :=
  let form := UnitForm.guess bytes
  if form.width = 1 then (Utf8.decode bytes).toOption
  else do
    let units ← units? form bytes.length bytes
    let codes := if form.width = 2 then joinSurrogates units else units
    if codes.all fun code => code < 0x110000 then some (codes.map charOfCode) else none

end BlockSketch.Text
