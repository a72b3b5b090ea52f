/-!
# Base sixty-four

Bytes as letters, three bytes in four of them.  Characters that stand for nothing are passed over, and
equals signs end the text only where they fill up a group of four.
-/

namespace BlockSketch.Text.Base64

/-- What is wrong with a text: one letter too many, or a group that is not filled up. -/
inductive Fault where
  | loneLetter (letters : Nat)
  | badPadding
  deriving DecidableEq, Repr

/-- The value of a letter. -/
def value? (c : Char) : Option Nat :=
  if 'A' ≤ c && c ≤ 'Z' then some (c.toNat - 65)
  else if 'a' ≤ c && c ≤ 'z' then some (c.toNat - 71)
  else if '0' ≤ c && c ≤ '9' then some (c.toNat + 4)
  else if c == '+' then some 62
  else if c == '/' then some 63
  else none

/-- Where in a text a reader is: its place in the group, the bits that are left over, the equals signs
since the last letter, and the number of bytes so far. -/
structure State where
  place : Nat := 0
  bits : Nat := 0
  padding : Nat := 0
  bytes : Nat := 0

/-- Puts a byte in front of what follows. -/
def byte (n : Nat) (rest : Except Fault (List UInt8)) : Except Fault (List UInt8) :=
  rest.map (n.toUInt8 :: ·)

/-- The bytes of the rest of a text. -/
def decodeFrom (q : State) : List Char → Except Fault (List UInt8)
  | [] =>
    if q.place = 0 then .ok []
    else if q.place = 1 then .error (.loneLetter (q.bytes / 3 * 4 + 1))
    else .error .badPadding
  | c :: s =>
    if c == '=' then
      if q.place < 2 then decodeFrom q s
      else if 4 ≤ q.place + (q.padding + 1) then .ok []
      else decodeFrom { q with padding := q.padding + 1 } s
    else match value? c with
      | none => decodeFrom q s
      | some v =>
        match q.place with
        | 0 => decodeFrom ⟨1, v, 0, q.bytes⟩ s
        | 1 => byte (q.bits * 4 + v / 16) (decodeFrom ⟨2, v % 16, 0, q.bytes + 1⟩ s)
        | 2 => byte (q.bits * 16 + v / 4) (decodeFrom ⟨3, v % 4, 0, q.bytes + 1⟩ s)
        | _ => byte (q.bits * 64 + v) (decodeFrom ⟨0, 0, 0, q.bytes + 1⟩ s)

/-- The bytes that a text stands for. -/
def decode (s : List Char) : Except Fault (List UInt8) := decodeFrom {} s

end BlockSketch.Text.Base64
