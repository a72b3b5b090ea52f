import BlockSketch.Text.Quoted

/-!
# What encodings can hold

ASCII holds the first 128 characters; the eight-bit encoding of all characters holds no surrogates.  In
the names of files some surrogates stand for single bytes.  A fault names the first run of characters
that an encoding cannot hold.
-/

namespace BlockSketch.Text

/-- An encoding of characters as bytes. -/
inductive Encoding where
  | ascii
  | utf8
  | fileName
  deriving DecidableEq, Repr

namespace Encoding

def name : Encoding → String
  | ascii => "ascii"
  | utf8 => "utf-8"
  | fileName => "utf-8"

/-- Why a character cannot be held. -/
def reason : Encoding → String
  | ascii => "ordinal not in range(128)"
  | utf8 => "surrogates not allowed"
  | fileName => "surrogates not allowed"

/-- Whether the encoding can hold a character. -/
def holds : Encoding → Char → Bool
  | ascii, c => c.toNat < 128
  | utf8, c => !isHalf c
  | fileName, c => !isHalf c || (0xDC80 ≤ codeOf c && codeOf c ≤ 0xDCFF)

end Encoding

/-- A run of characters that an encoding cannot hold: the code of the first one, its place, and how
many there are. -/
structure EncodingFault where
  encoding : Encoding
  code : Nat
  position : Nat
  count : Nat
  deriving DecidableEq, Repr

def EncodingFault.message (f : EncodingFault) : String :=
  let place :=
    if f.count = 1 then s!"character '{String.ofList (codeEscape f.code)}' in position {f.position}"
    else s!"characters in position {f.position}-{f.position + f.count - 1}"
  s!"'{f.encoding.name}' codec can't encode {place}: {f.encoding.reason}"

/-- The first run of characters that an encoding cannot hold. -/
def Encoding.fault? (e : Encoding) (s : List Char) : Option EncodingFault :=
  match s.dropWhile e.holds with
  | [] => none
  | c :: rest =>
    some ⟨e, codeOf c, (s.takeWhile e.holds).length, 1 + (rest.takeWhile fun d => !e.holds d).length⟩

/-- There is no fault exactly when every character can be held. -/
theorem Encoding.fault?_eq_none_iff {e : Encoding} {s : List Char} :
    e.fault? s = none ↔ ∀ c ∈ s, e.holds c = true := by
  have h : s.dropWhile e.holds = [] ↔ ∀ c ∈ s, e.holds c = true := by
    induction s with
    | nil => simp
    | cons c s ih =>
      rw [List.dropWhile_cons]
      split <;> simp_all
  rw [← h]
  unfold fault?
  split <;> simp_all

end BlockSketch.Text
