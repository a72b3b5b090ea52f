/-!
# White space

The characters that separate words and that trimming removes: the white space of the character
database together with the four information separators.  Zero-width characters are not blank.  Line
breaks can be made all alike.
-/

namespace BlockSketch.Text

/-- Whether a character is white space. -/
def isBlank (c : Char) : Bool :=
  let n := c.toNat
  (9 ≤ n && n ≤ 13) || (28 ≤ n && n ≤ 32) || n == 0x85 || n == 0xA0 || n == 0x1680 ||
    (0x2000 ≤ n && n ≤ 0x200A) || n == 0x2028 || n == 0x2029 || n == 0x202F || n == 0x205F ||
    n == 0x3000

/-- The text without its leading white space. -/
def trimLeft (s : List Char) : List Char := s.dropWhile isBlank

/-- The text without its trailing white space. -/
def trimRight (s : List Char) : List Char := (s.reverse.dropWhile isBlank).reverse

/-- The text without white space at either end. -/
def trim (s : List Char) : List Char := trimRight (trimLeft s)

/-- Whether the text holds nothing but white space. -/
def isBlankText (s : String) : Bool := s.toList.all isBlank

/-- `trim` on strings. -/
def strip (s : String) : String := String.ofList (trim s.toList)

/-- Line breaks of any kind as single line feeds. -/
def unifyBreaks : List Char → List Char
  | [] => []
  | '\r' :: '\n' :: s => '\n' :: unifyBreaks s
  | '\r' :: s => '\n' :: unifyBreaks s
  | c :: s => c :: unifyBreaks s

theorem isBlank_space : isBlank ' ' = true := by decide

/-- Every character that the core library counts as white space is blank. -/
theorem isBlank_of_isWhitespace {c : Char} (h : c.isWhitespace = true) : isBlank c = true := by
  simp only [Char.isWhitespace, Bool.or_eq_true, decide_eq_true_eq] at h
  rcases h with ((rfl | rfl) | rfl) | rfl <;> decide

/-- Nothing blank is left in front. -/
theorem head?_trimLeft (s : List Char) : ∀ c ∈ (trimLeft s).head?, isBlank c = false := by
  intro c hc
  induction s with
  | nil => simp [trimLeft] at hc
  | cons d s ih =>
    unfold trimLeft at ih hc
    rw [List.dropWhile_cons] at hc
    split at hc
    · exact ih hc
    · simp_all

end BlockSketch.Text
