import BlockSketch.Text.Blank
import BlockSketch.Text.Utf8

/-!
# Texts in pieces

A file of characters is read in chunks of bytes and handed on in pieces of a fixed number of characters,
with all line breaks as single line feeds.  Bytes that are no characters only matter when their chunk is
read, and their place is counted from the first byte that was not yet a character.
-/

namespace BlockSketch.Pieces

/-- The fewest bytes of a chunk. -/
def chunkBytes : Nat := 8192

/-- The characters of a piece. -/
def pieceChars : Nat := 4096

/-- A file that is being read. -/
structure State where
  /-- Bytes that are not yet read. -/
  bytes : List UInt8
  /-- Bytes that are read and begin a character. -/
  begun : List UInt8 := []
  /-- Whether a carriage return was read whose line feed may follow. -/
  held : Bool := false
  /-- Characters that are not yet handed on. -/
  ready : List Char := []
  /-- The numbers of bytes and of characters of the last chunk. -/
  last : Nat × Nat := (0, 0)

/-- The bytes to read when so many characters are needed: as many as the last chunk suggests. -/
def State.request (t : State) (needed : Nat) : Nat :=
  max chunkBytes (if t.last.2 = 0 then 0 else needed * t.last.1 / t.last.2)

/-- Whether more bytes may follow the faulty ones before the fault counts.  The first two bytes of a
surrogate are only refused with the third. -/
def awaitsMore (fault : Utf8.Fault) (bytes : List UInt8) : Bool :=
  fault.problem == .truncated ||
    match bytes.drop fault.position with
    | [a, b] => a == 0xED && 0xA0 ≤ b && b < 0xC0
    | _ => false

/-- The characters of bytes, and the bytes at the end that begin a character.  At the end of a file
there must be none. -/
def decodeFront (final : Bool) (bytes : List UInt8) : Except Utf8.Fault (List Char × List UInt8) :=
  match Utf8.decode bytes with
  | .ok cs => .ok (cs, [])
  | .error fault =>
    if !final && awaitsMore fault bytes then do
      return (← Utf8.decode (bytes.take fault.position), bytes.drop fault.position)
    else .error fault

/-- The state after the next chunk, and whether there was anything in it. -/
def State.readChunk (t : State) (needed : Nat) : Except Utf8.Fault (State × Bool) := do
  let chunk := t.bytes.take (t.request needed)
  let final := chunk.isEmpty
  let (cs, begun) ← decodeFront final (t.begun ++ chunk)
  let cs := if t.held && (final || !cs.isEmpty) then '\r' :: cs else cs
  let held := if cs.isEmpty then t.held && !final else cs.getLast? == some '\r' && !final
  let cs := Text.unifyBreaks (if held then cs.dropLast else cs)
  return ({
    bytes := t.bytes.drop chunk.length, begun := begun, held := held, ready := t.ready ++ cs
    last := (chunk.length, cs.length) }, !final || !cs.isEmpty)

/-- Reads chunks until there are enough characters for a piece or the file ends. -/
def State.fill : (fuel : Nat) → State → Except Utf8.Fault State
  | 0, t => .ok t
  | fuel + 1, t =>
    if pieceChars ≤ t.ready.length then .ok t
    else do
      let (t, more) ← t.readChunk (pieceChars - t.ready.length)
      if more then t.fill fuel else return t

/-- The pieces of a file, the last of which may be a fault. -/
def piecesFrom : (fuel : Nat) → State → List (Except Utf8.Fault (List Char))
  | 0, _ => []
  | fuel + 1, t =>
    match t.fill (t.bytes.length + 2) with
    | .error fault => [.error fault]
    | .ok t =>
      if t.ready.isEmpty then []
      else
        .ok (t.ready.take pieceChars) ::
          piecesFrom fuel { t with ready := t.ready.drop pieceChars }

/-- The pieces of a file. -/
def ofBytes (bytes : List UInt8) : List (Except Utf8.Fault (List Char)) :=
  piecesFrom (bytes.length + 2) { bytes := bytes }

end BlockSketch.Pieces
