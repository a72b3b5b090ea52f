import BlockSketch.Text.PrintableTable
import BlockSketch.Text.Ranges
import BlockSketch.Text.Surrogate

/-!
# Quoted literals

A text between quotes, with escapes for what has no visible form.  Single quotes are used unless the
text holds single quotes and no double ones.
-/

namespace BlockSketch.Text

/-- Whether a character can be shown as it is. -/
def isPrintable (c : Char) : Bool :=
  if c.toNat < 128 then 32 ≤ c.toNat && c.toNat < 127 else covers printableRanges c.toNat

/-- The digits of `n` in base sixteen, in lower case, at least `width` of them. -/
def hex (width n : Nat) : List Char :=
  let ds := Nat.toDigits 16 n
  List.replicate (width - ds.length) '0' ++ ds

/-- The quote that encloses a text. -/
def quoteFor (s : List Char) : Char :=
  if s.contains '\'' && !s.contains '"' then '"' else '\''

/-- The escape of a code: the shortest of three forms. -/
def codeEscape (code : Nat) : List Char :=
  if code < 0x100 then '\\' :: 'x' :: hex 2 code
  else if code < 0x10000 then '\\' :: 'u' :: hex 4 code
  else '\\' :: 'U' :: hex 8 code

/-- The form of one character between quotes `q`. -/
def quotedChar (q c : Char) : List Char :=
  if c == q || c == '\\' then ['\\', c]
  else if c == '\t' then ['\\', 't']
  else if c == '\n' then ['\\', 'n']
  else if c == '\r' then ['\\', 'r']
  else if isPrintable c then [c]
  else codeEscape (codeOf c)

/-- The text as a quoted literal. -/
def quotedList (s : List Char) : List Char :=
  let q := quoteFor s
  q :: s.flatMap (quotedChar q) ++ [q]

/-- `quotedList` on strings. -/
def quoted (s : String) : String := String.ofList (quotedList s.toList)

end BlockSketch.Text
