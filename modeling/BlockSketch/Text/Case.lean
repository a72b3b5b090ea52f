import BlockSketch.Text.CaseTable
import BlockSketch.Text.Ranges

/-!
# Letter case

The full mappings to lower and to upper case, which may lengthen a text.  A capital sigma at the end
of a word becomes a final sigma; every other mapping looks at one character only.
-/

namespace BlockSketch.Text

/-- The image of a code point under the run that holds it. -/
def shifted : List CaseRun → Nat → Nat
  | [], n => n
  | r :: rest, n =>
    if n < r.first then n
    else if n ≤ r.last && (n - r.first) % r.step == 0 then (n + r.shift).toNat
    else shifted rest n

/-- The image of a character: its expansion if it has one, else a single character. -/
def caseMap (expansions : List (Nat × List Nat)) (runs : List CaseRun) (c : Char) : List Char :=
  match expansions.lookup c.toNat with
  | some codes => codes.map Char.ofNat
  | none => [Char.ofNat (shifted runs c.toNat)]

/-- A character in lower case, wherever it stands. -/
def lowerChar (c : Char) : List Char :=
  if c.toNat < 128 then [c.toLower] else caseMap lowerExpansions lowerRuns c

/-- A character in upper case. -/
def upperChar (c : Char) : List Char :=
  if c.toNat < 128 then [c.toUpper] else caseMap upperExpansions upperRuns c

def isCaseIgnorable (c : Char) : Bool := covers caseIgnorableRanges c.toNat

def isCased (c : Char) : Bool := covers casedRanges c.toNat

/-- Whether the first character that is not case-ignorable has letter case. -/
def meetsCased (s : List Char) : Bool :=
  match s.dropWhile isCaseIgnorable with
  | [] => false
  | c :: _ => isCased c

/-- Whether a sigma ends its word, given the text before it, nearest first, and the text after. -/
def sigmaIsFinal (before after : List Char) : Bool := meetsCased before && !meetsCased after

/-- Lower case of a text, given what precedes it, nearest first. -/
def lowerAfter (before : List Char) : List Char → List Char
  | [] => []
  | c :: s =>
    (if c == 'Σ' then [if sigmaIsFinal before s then 'ς' else 'σ'] else lowerChar c) ++
      lowerAfter (c :: before) s

/-- A text in lower case. -/
def lower (s : List Char) : List Char := lowerAfter [] s

/-- A text in upper case. -/
def upper (s : List Char) : List Char := s.flatMap upperChar

/-- `lower` on strings. -/
def lowercase (s : String) : String := String.ofList (lower s.toList)

/-- `upper` on strings. -/
def uppercase (s : String) : String := String.ofList (upper s.toList)

/-- An ASCII character stays alone in lower case. -/
theorem lowerChar_of_lt {c : Char} (h : c.toNat < 128) : lowerChar c = [c.toLower] := by
  simp [lowerChar, h]

/-- An ASCII character stays alone in upper case. -/
theorem upperChar_of_lt {c : Char} (h : c.toNat < 128) : upperChar c = [c.toUpper] := by
  simp [upperChar, h]

end BlockSketch.Text
