import BlockSketch.Document.Basic

/-!
# The order of sets

A set keeps its members in the slots of a table, each in the first free slot of a walk that starts where
its hash says, and shows them in the order of the slots.  Numbers have a hash that depends on their amount
alone; sets with other members are left in the order in which they were made.
-/

namespace BlockSketch.Document.Slots

/-- Hashes are remainders by this prime. -/
def modulus : Nat := powerOfTwo 61 - 1

/-- The number of patterns of a machine word. -/
def wordCount : Nat := powerOfTwo 64

/-- The pattern of a hash.  The pattern of minus one is set apart. -/
def pattern (negative : Bool) (n : Nat) : Nat :=
  let n := n % modulus
  if negative && n != 0 then wordCount - (if n = 1 then 2 else n) else n

/-- The inverse of a power of two by the prime. -/
def inverse (den : Nat) : Nat := powerOfTwo (61 - Nat.log2 den % 61)

/-- The hash of a number, as a pattern. -/
def hash? : Document → Option Nat
  | .bool b => some (if b then 1 else 0)
  | .int n => some (pattern (n < 0) n.natAbs)
  | .float x => x.value?.map fun (num, den) => pattern (num < 0) (num.natAbs * inverse den)
  | _ => none

/-- The slots of a table, some of which hold a member. -/
abbrev Table := List (Option Document)

/-- The number of slots for so many members. -/
def sizeFor (count : Nat) : Nat :=
  if count ≤ 4 then 8 else powerOfTwo (Nat.log2 (2 * count) + 1)

/-- How many slots after the first one are tried before the walk goes on elsewhere. -/
def nearby : Nat := 9

/-- The first free slot of a walk in a table of so many slots.  The fuel bounds the length of the walk. -/
def freeSlot (table : Table) (size : Nat) : (fuel perturbation slot : Nat) → Nat
  | 0, _, slot => slot
  | fuel + 1, perturbation, slot =>
    let tried := if slot + nearby < size then nearby + 1 else 1
    let isFree (i : Nat) : Bool := (table[slot + i]?).any Option.isNone
    match (List.range tried).find? isFree with
    | some i => slot + i
    | none =>
      let perturbation := perturbation / 32
      freeSlot table size fuel perturbation ((slot * 5 + 1 + perturbation) % size)

/-- The table with another member. -/
def place (size : Nat) (table : Table) (member : Document × Nat) : Table :=
  table.set (freeSlot table size (size + 16) member.2 (member.2 % size)) (some member.1)

/-- The members of a set in the order in which it shows them. -/
def order (members : List Document) : List Document :=
  match members.mapM fun d => (hash? d).map (d, ·) with
  | none => members
  | some hashed =>
    let size := sizeFor members.length
    (hashed.foldl (place size) (List.replicate size none)).filterMap id

end BlockSketch.Document.Slots
