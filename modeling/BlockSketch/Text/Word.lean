import BlockSketch.Text.Ranges
import BlockSketch.Text.WordTable

/-!
# Word characters

Letters, digits and other numbers of any script, and the underscore.
-/

namespace BlockSketch.Text

/-- Whether a character is a letter or has a numeric value. -/
def isAlphanumeric (c : Char) : Bool :=
  if c.toNat < 128 then c.isAlphanum else covers alphanumericRanges c.toNat

/-- Whether a character can be part of a word. -/
def isWord (c : Char) : Bool := c == '_' || isAlphanumeric c

end BlockSketch.Text
