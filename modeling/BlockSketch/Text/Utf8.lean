import BlockSketch.Text.Encoding

/-!
# Characters as bytes

The eight-bit encoding of characters, from one to four bytes each.  A fault names the bytes that fit
no character.
-/

namespace BlockSketch.Utf8

/-- What is wrong with some bytes. -/
inductive Problem where
  | badStart
  | badContinuation
  | truncated
  deriving DecidableEq, Repr

def Problem.message : Problem → String
  | badStart => "invalid start byte"
  | badContinuation => "invalid continuation byte"
  | truncated => "unexpected end of data"

/-- Bytes that are no character: the first of them, its place, and how many there are. -/
structure Fault where
  problem : Problem
  byte : UInt8
  position : Nat
  count : Nat
  deriving DecidableEq, Repr

def Fault.message (f : Fault) : String :=
  let place :=
    if f.count = 1 then s!"byte 0x{String.ofList (Text.hex 2 f.byte.toNat)} in position {f.position}"
    else s!"bytes in position {f.position}-{f.position + f.count - 1}"
  s!"'utf-8' codec can't decode {place}: {f.problem.message}"

/-- The bytes of a character. -/
def encodeChar (c : Char) : List UInt8 :=
  let n := c.toNat
  if n < 0x80 then [n.toUInt8]
  else if n < 0x800 then [(0xC0 + n / 0x40).toUInt8, (0x80 + n % 0x40).toUInt8]
  else if n < 0x10000 then
    [(0xE0 + n / 0x1000).toUInt8, (0x80 + n / 0x40 % 0x40).toUInt8, (0x80 + n % 0x40).toUInt8]
  else
    [(0xF0 + n / 0x40000).toUInt8, (0x80 + n / 0x1000 % 0x40).toUInt8,
      (0x80 + n / 0x40 % 0x40).toUInt8, (0x80 + n % 0x40).toUInt8]

/-- The bytes of a text. -/
def encode (s : List Char) : List UInt8 := s.flatMap encodeChar

/-- The bytes of a text, unless it holds a surrogate. -/
def encodeStrictly (s : List Char) : Except Text.EncodingFault (List UInt8) :=
  match Text.Encoding.utf8.fault? s with
  | none => .ok (encode s)
  | some fault => .error fault

def isContinuation (b : Nat) : Bool := 0x80 ≤ b && b < 0xC0

/-- Whether `b` may be the second byte after the first byte `a` of three or four. -/
def continues (a b : Nat) : Bool :=
  isContinuation b && (a != 0xE0 || 0xA0 ≤ b) && (a != 0xED || b < 0xA0) &&
    (a != 0xF0 || 0x90 ≤ b) && (a != 0xF4 || b < 0x90)

/-- The bits that a continuation byte adds. -/
def extend (n b : Nat) : Nat := n * 0x40 + (b - 0x80)

/-- The character at the front of some bytes and the number of its bytes, or the problem and the
number of bytes that it concerns. -/
def front (bytes : List Nat) : Except (Problem × Nat) (Char × Nat) :=
  match bytes with
  | [] => .error (.truncated, 0)
  | a :: rest =>
    if a < 0x80 then .ok (Char.ofNat a, 1)
    else if a < 0xC2 then .error (.badStart, 1)
    else if a < 0xE0 then
      match rest with
      | [] => .error (.truncated, 1)
      | b :: _ =>
        if isContinuation b then .ok (Char.ofNat (extend (a - 0xC0) b), 2)
        else .error (.badContinuation, 1)
    else if a < 0xF0 then
      match rest with
      | [] => .error (.truncated, 1)
      | b :: rest =>
        if !continues a b then .error (.badContinuation, 1)
        else match rest with
          | [] => .error (.truncated, 2)
          | c :: _ =>
            if isContinuation c then .ok (Char.ofNat (extend (extend (a - 0xE0) b) c), 3)
            else .error (.badContinuation, 2)
    else if a < 0xF5 then
      match rest with
      | [] => .error (.truncated, 1)
      | b :: rest =>
        if !continues a b then .error (.badContinuation, 1)
        else match rest with
          | [] => .error (.truncated, 2)
          | c :: rest =>
            if !isContinuation c then .error (.badContinuation, 2)
            else match rest with
              | [] => .error (.truncated, 3)
              | d :: _ =>
                if isContinuation d then
                  .ok (Char.ofNat (extend (extend (extend (a - 0xF0) b) c) d), 4)
                else .error (.badContinuation, 3)
    else .error (.badStart, 1)

/-- Decodes from a position on, with a character for each unit of fuel. -/
def decodeFrom (position : Nat) : (fuel : Nat) → List UInt8 → Except Fault (List Char)
  | _, [] => .ok []
  | 0, _ => .ok []
  | fuel + 1, b :: bytes =>
    match front (((b :: bytes).take 4).map UInt8.toNat) with
    | .error (problem, count) => .error ⟨problem, b, position, count⟩
    | .ok (c, n) => do
      let cs ← decodeFrom (position + n) fuel ((b :: bytes).drop n)
      return c :: cs

/-- The characters of some bytes. -/
def decode (bytes : List UInt8) : Except Fault (List Char) := decodeFrom 0 bytes.length bytes

end BlockSketch.Utf8
