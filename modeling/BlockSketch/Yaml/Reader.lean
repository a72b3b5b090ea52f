import BlockSketch.Files.Pieces
import BlockSketch.Yaml.Tree

/-!
# Reading YAML

The document that a file holds.  A file arrives in pieces as far as they are needed, so a fault of form
counts before what is wrong with a later piece.
-/

namespace BlockSketch.Yaml

/-- Why reading stops, and how far it came. -/
structure Halt where
  error : Error
  reach : Nat

/-- The place of an error, if it has one. -/
def Error.place : Error → Nat
  | malformed fault => fault.place.index
  | _ => 0

/-- The nodes of a text and the number of the root, if the text holds anything. -/
def compose (s : List Char) : Except Halt (Option (Nat × Graph)) :=
  let supply : Supply := { cursor := .start s }
  let read := (Compose.single? (8 * s.length + 16)).run { handles := standardHandles }
  match read.run.run supply with
  | (.error e, supply) => .error ⟨e, max e.place supply.cursor.index⟩
  | (.ok (root, draft), _) => .ok (root.map (·, draft.nodes))

/-- The document of a text, whose line breaks are single line feeds; nothing counts as `null`.  Whatever
is wrong with values is only met after the whole text. -/
def parse (s : List Char) : Except Halt Document := do
  match ← compose s with
  | none => return .null
  | some (root, graph) =>
    match graph.objects root with
    | .ok objects => return treeOf objects root
    | .error e => throw ⟨e, s.length⟩

/-- The document of a text. -/
def read (text : String) : Except Error Document := (parse text.toList).mapError Halt.error

/-! ## Texts that arrive in pieces -/

/-- Whether a text may hold a character. -/
def isAllowed (c : Char) : Bool :=
  let n := c.toNat
  n == 9 || n == 10 || n == 13 || (32 ≤ n && n ≤ 126) || n == 0x85 ||
    (0xA0 ≤ n && n ≤ 0xFFFD) || 0x10000 ≤ n

/-- The first character that no text may hold, and its place. -/
def unprintable? (s : List Char) : Option (Nat × Nat) :=
  (s.findIdx? (!isAllowed ·)).bind fun i => s[i]?.map fun c => (c.toNat, i)

/-- A text as far as it can be read, and what stops it there. -/
structure Arrival where
  text : List Char
  stop : Option Error := none

/-- The text of pieces after those that make `before`. -/
def arrive (before : List Char) : List (Except Utf8.Fault (List Char)) → Arrival
  | [] => { text := before }
  | .error fault :: _ => ⟨before, some (.undecodable fault)⟩
  | .ok piece :: rest =>
    match unprintable? piece with
    | some (code, position) => ⟨before, some (.unprintable code (before.length + position))⟩
    | none => arrive (before ++ piece) rest

/-- The text of a file.  The first two pieces are looked at together. -/
def Arrival.ofBytes (bytes : List UInt8) : Arrival :=
  match Pieces.ofBytes bytes with
  | .ok first :: .ok second :: rest => arrive [] (.ok (first ++ second) :: rest)
  | .ok _ :: .error fault :: _ => ⟨[], some (.undecodable fault)⟩
  | pieces => arrive [] pieces

/-- The document of a file. -/
def readBytes (bytes : List UInt8) : Except Error Document :=
  let a := Arrival.ofBytes bytes
  match a.stop, parse a.text with
  | none, .ok d => .ok d
  | none, .error halt => .error halt.error
  | some stop, .ok _ => .error stop
  | some stop, .error halt => if halt.reach < a.text.length then .error halt.error else .error stop

end BlockSketch.Yaml
