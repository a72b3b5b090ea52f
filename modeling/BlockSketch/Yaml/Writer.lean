import BlockSketch.Yaml.Plain

/-!
# Writing YAML

Mappings in block style, an entry a line, whose values are mappings, texts or whole numbers.  A text is
written plain if that reads back as the same text, else between single quotes if it has only printable
ASCII, else between double quotes with escapes.  Long texts are folded at a space beyond the line
width.
-/

namespace BlockSketch.Yaml

/-- Lines are folded at the first chance beyond this column. -/
def lineWidth : Nat := 80

/-- The indentation of one level. -/
def indentWidth : Nat := 2

/-- The ways to write a text. -/
inductive Style where
  | plain
  | single
  | double
  deriving DecidableEq, Repr

namespace Style

/-- Characters that a text can hold outside double quotes. -/
def isEasy (c : Char) : Bool := c == '\n' || (' ' ≤ c && c ≤ '~')

/-- Whether two neighbours satisfy the tests. -/
def meets (p q : Char → Bool) : List Char → Bool
  | c :: d :: s => (p c && q d) || meets p q (d :: s)
  | _ => false

def isSpace (c : Char) : Bool := c == ' '

/-- Whether a text starts like a document marker. -/
def startsMarker (s : List Char) : Bool :=
  ['-', '-', '-'].isPrefixOf s || ['.', '.', '.'].isPrefixOf s

/-- Whether the first character would be taken for an indicator, given the next one. -/
def startsIndicator (s : List Char) : Bool :=
  match s with
  | [] => false
  | c :: rest =>
    "#,[]\x7b\x7d&*!|>'\"%@\x60".toList.contains c ||
      ((c == '?' || c == ':' || c == '-') && isGapOrTab (rest.headD '\x00'))

/-- Whether a colon or a number sign further on would be taken for an indicator. -/
def holdsIndicator : List Char → Bool
  | [] => false
  | c :: rest =>
    match rest with
    | [] => false
    | d :: after =>
      (d == ':' && isGapOrTab (after.headD '\x00')) || (d == '#' && isGapOrTab c) ||
        holdsIndicator rest

/-- Whether a text starts or ends with a space or a break. -/
def hasLooseEnd (s : List Char) : Bool :=
  (s.head?.map isGap).getD false || (s.getLast?.map isGap).getD false

/-- Whether a text can stand without quotes. -/
def allowsPlain (s : List Char) : Bool :=
  !s.contains '\n' && !startsMarker s && !startsIndicator s && !holdsIndicator s && !hasLooseEnd s

/-- Whether a text can stand between single quotes: spaces beside line breaks would be lost. -/
def allowsSingle (s : List Char) : Bool :=
  s.all isEasy && !meets isSpace isBreak s && !meets isBreak isSpace s

/-- The style of a text. -/
def ofText (text : String) : Style :=
  let s := text.toList
  if !allowsSingle s then .double
  else if Plain.sort text = .text && allowsPlain s then .plain
  else .single

end Style

/-- Characters as far as they are written, and the column they reach. -/
structure Output where
  written : List Char
  column : Nat

namespace Output

def put (o : Output) (s : List Char) : Output := ⟨o.written ++ s, o.column + s.length⟩

/-- A new line with an indentation. -/
def newline (o : Output) (indent : Nat) : Output :=
  ⟨o.written ++ '\n' :: List.replicate indent ' ', indent⟩

end Output

/-- The maximal runs of characters of one class. -/
def runs (f : Char → Nat) : List Char → List (List Char)
  | [] => []
  | c :: s =>
    match runs f s with
    | (d :: r) :: rest => if f c == f d then (c :: d :: r) :: rest else [c] :: (d :: r) :: rest
    | rest => [c] :: rest

/-- Spaces, breaks, and all other characters. -/
def runClass (c : Char) : Nat := if c == ' ' then 0 else if isBreak c then 1 else 2

/-- Whether a single space is replaced by a new line. -/
def foldsAt (o : Output) (space : List Char) : Bool := space.length == 1 && lineWidth < o.column

/-- Runs of a plain text. -/
def putPlain (indent : Nat) (o : Output) (parts : List (List Char)) : Output :=
  parts.foldl (fun o part =>
    if part.head? == some ' ' && foldsAt o part then o.newline indent else o.put part) o

/-- A run of breaks inside quotes: one more than there are, then the indentation. -/
def putBreaks (indent : Nat) (o : Output) (breaks : List Char) : Output :=
  let lines : Output := ⟨o.written ++ '\n' :: breaks, 0⟩
  lines.put (List.replicate indent ' ')

/-- Runs of a text between single quotes, where quotes are written twice. -/
def putSingle (indent : Nat) (first : Bool) (o : Output) : List (List Char) → Output
  | [] => o
  | part :: rest =>
    let next :=
      match part.head? with
      | some ' ' =>
        if !first && !rest.isEmpty && foldsAt o part then o.newline indent else o.put part
      | some c =>
        if isBreak c then putBreaks indent o part
        else o.put (part.flatMap fun c => if c == '\'' then ['\'', '\''] else [c])
      | none => o
    putSingle indent false next rest

/-- Escapes of single characters between double quotes. -/
def shortEscapes : List (Char × Char) :=
  [('\x00', '0'), ('\x07', 'a'), ('\x08', 'b'), ('\t', 't'), ('\n', 'n'), ('\x0b', 'v'),
    ('\x0c', 'f'), ('\r', 'r'), ('\x1b', 'e'), ('"', '"'), ('\\', '\\'), ('\x85', 'N'),
    ('\xa0', '_'), ('\u2028', 'L'), ('\u2029', 'P')]

/-- The escape of a character between double quotes; `none` if it stands for itself. -/
def escaped? (c : Char) : Option (List Char) :=
  let n := Text.codeOf c
  let code (letter : Char) (width : Nat) :=
    some ('\\' :: letter :: (Text.hex width n).map Char.toUpper)
  match shortEscapes.lookup c with
  | some d => some ['\\', d]
  | none =>
    if ' ' ≤ c && c ≤ '~' then none
    else if n ≤ 0xFF then code 'x' 2
    else if n ≤ 0xFFFF then code 'u' 4
    else code 'U' 8

/-- A text between double quotes.  `pending` are characters that are not yet written, so that a line
can be broken before a space; a backslash at the end of a line keeps what follows together. -/
def putDouble (indent : Nat) (first : Bool) (o : Output) (pending : List Char) : List Char → Output
  | [] => o.put pending
  | c :: rest =>
    let escape := escaped? c
    let o := match escape with
      | some e => (o.put pending).put e
      | none => o
    let pending := if escape.isSome then [] else pending
    let reach := o.column + pending.length - (if escape.isSome then 1 else 0)
    if !first && !rest.isEmpty && (c == ' ' || pending.isEmpty) && lineWidth < reach then
      let o := ((o.put pending).put ['\\']).newline indent
      let next := if escape.isSome then rest.head? else some c
      let o := if next == some ' ' then o.put ['\\'] else o
      putDouble indent false o (if escape.isSome then [] else [c]) rest
    else putDouble indent false o (if escape.isSome then [] else pending ++ [c]) rest

/-- A text after the colon of its key, folded at an indentation. -/
def putText (indent : Nat) (o : Output) (text : String) : Output :=
  let s := text.toList
  match Style.ofText text with
  | .plain => putPlain indent (o.put [' ']) (runs runClass s)
  | .single => (putSingle indent true (o.put [' ', '\'']) (runs runClass s)).put ['\'']
  | .double => (putDouble indent true (o.put [' ', '"']) [] s).put ['"']

mutual

/-- A value after the colon of its key; its further lines stand at `indent`. -/
def putValue (indent : Nat) (o : Output) : Document → Output
  | .map entries => putEntries indent o entries
  | .text s => putText indent o s
  | .int n => o.put (' ' :: (toString n).toList)
  | _ => o

/-- Entries, each on a new line. -/
def putEntries (indent : Nat) (o : Output) : List (Document × Document) → Output
  | [] => o
  | (k, v) :: rest =>
    let key := match k with
      | .text s => s.toList
      | _ => []
    let o := if o.written.isEmpty then o else o.newline indent
    putEntries indent (putValue (indent + indentWidth) ((o.put key).put [':']) v) rest

end

/-- The text of a mapping; its last line ends with a line break. -/
def write (d : Document) : String :=
  match d with
  | .map entries => String.ofList ((putEntries 0 ⟨[], 0⟩ entries).written ++ ['\n'])
  | _ => ""

end BlockSketch.Yaml
