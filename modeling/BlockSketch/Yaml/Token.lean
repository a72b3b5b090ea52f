import BlockSketch.Yaml.Property

/-!
# Tokens

A text is taken apart into tokens only as far as they are asked for, so that of two faults the one
that is reached first counts.  Indentation opens and closes block collections.  A scalar can turn out
to be a key when a colon follows it on its line; until then it is a possible key, and the tokens of a
key are put in before it.
-/

namespace BlockSketch.Yaml

/-- The kinds of tokens. -/
inductive TokenKind where
  | streamEnd
  | directive (found : Directive)
  | documentStart
  | documentEnd
  | blockSequenceStart
  | blockMappingStart
  | blockEnd
  | flowSequenceStart
  | flowSequenceEnd
  | flowMappingStart
  | flowMappingEnd
  | key
  | value
  | blockEntry
  | flowEntry
  | reference (name : String)
  | anchor (name : String)
  | tag (text : TagText)
  | scalar (text : String) (plain : Bool)
  deriving DecidableEq, Repr

/-- The name of a kind of tokens in messages. -/
def TokenKind.id : TokenKind → String
  | streamEnd => "<stream end>"
  | directive _ => "<directive>"
  | documentStart => "<document start>"
  | documentEnd => "<document end>"
  | blockSequenceStart => "<block sequence start>"
  | blockMappingStart => "<block mapping start>"
  | blockEnd => "<block end>"
  | flowSequenceStart => "["
  | flowSequenceEnd => "]"
  | flowMappingStart => "\x7b"
  | flowMappingEnd => "\x7d"
  | key => "?"
  | value => ":"
  | blockEntry => "-"
  | flowEntry => ","
  | reference _ => "<alias>"
  | anchor _ => "<anchor>"
  | tag _ => "<tag>"
  | scalar _ _ => "<scalar>"

/-- A token and where it starts and stops. -/
structure Token where
  kind : TokenKind
  start : Mark
  stop : Mark

/-- A token that may turn out to be a key: its number, its place, and whether it must be one. -/
structure PossibleKey where
  number : Nat
  required : Bool
  index : Nat
  mark : Mark

/-- The state of taking a text apart. -/
structure Supply where
  cursor : Cursor
  /-- Tokens that are found and not yet taken. -/
  waiting : List Token := []
  taken : Nat := 0
  finished : Bool := false
  /-- How many flow collections are open. -/
  depth : Int := 0
  /-- The column of the innermost block collection, and of those around it. -/
  indent : Int := -1
  outer : List Int := []
  keyAllowed : Bool := true
  /-- At most one possible key for each depth. -/
  keys : List (Int × PossibleKey) := []

/-- A reader of tokens, which keeps track of how far it came when it fails. -/
abbrev Parse := ExceptT Error (StateM Supply)

namespace Supply

/-- A key can be no longer than this many characters. -/
def maxKeyLength : Nat := 1024

def inFlow (s : Supply) : Bool := s.depth != 0

def mark (s : Supply) : Mark := s.cursor.mark

def missingColon (s : Supply) (k : PossibleKey) : Error :=
  .malformed ⟨some .simpleKey, some k.mark, .missingColon, s.mark⟩

/-- Drops possible keys that have ended without a colon. -/
def dropStale (s : Supply) : Except Error Supply := do
  let isStale (k : PossibleKey) :=
    k.mark.line != s.cursor.line || maxKeyLength < s.cursor.index - k.index
  match s.keys.find? fun k => isStale k.2 && k.2.required with
  | some k => throw (s.missingColon k.2)
  | none => return { s with keys := s.keys.filter fun k => !isStale k.2 }

/-- Drops the possible key of the present depth. -/
def dropKey (s : Supply) : Except Error Supply :=
  match s.keys.lookup s.depth with
  | some k =>
    if k.required then .error (s.missingColon k)
    else .ok { s with keys := s.keys.filter fun k => k.1 != s.depth }
  | none => .ok s

/-- Notes that the next token may be a key. -/
def noteKey (s : Supply) : Except Error Supply := do
  if !s.keyAllowed then return s
  let required := !s.inFlow && s.indent == s.cursor.column
  let s ← s.dropKey
  let key : PossibleKey := ⟨s.taken + s.waiting.length, required, s.cursor.index, s.mark⟩
  return { s with keys := s.keys ++ [(s.depth, key)] }

def add (s : Supply) (t : Token) : Supply := { s with waiting := s.waiting ++ [t] }

/-- Adds a token without extent. -/
def addHere (s : Supply) (kind : TokenKind) : Supply := s.add ⟨kind, s.mark, s.mark⟩

/-- Adds a token of `n` characters and moves over it. -/
def addNext (s : Supply) (kind : TokenKind) (n : Nat) : Supply :=
  let cursor := s.cursor.advance n
  { s.add ⟨kind, s.mark, cursor.mark⟩ with cursor := cursor }

/-- Closes the collections whose columns are beyond `column`. -/
def closeTo (column : Int) : List Int → Supply → Supply
  | [], s => s
  | i :: rest, s =>
    if s.indent ≤ column then s
    else closeTo column rest { s.addHere .blockEnd with indent := i, outer := rest }

/-- Closes block collections, unless a flow collection is open. -/
def unwind (s : Supply) (column : Int) : Supply :=
  if s.inFlow then s else closeTo column s.outer s

/-- Whether a column opens a collection. -/
def opens (s : Supply) (column : Nat) : Bool := s.indent < column

/-- Opens a collection at a column. -/
def openAt (s : Supply) (column : Nat) : Supply :=
  { s with outer := s.indent :: s.outer, indent := column }

/-- Opens a collection at the cursor if the indentation calls for it. -/
def openHere (s : Supply) (kind : TokenKind) : Supply :=
  if s.opens s.cursor.column then (s.addHere kind).openAt s.cursor.column else s

/-- Runs a reader of characters. -/
def scan {α : Type} (s : Supply) (r : Scan α) : Except Error (α × Supply) := do
  let (a, cursor) ← r.run s.cursor
  return (a, { s with cursor := cursor })

/-- Puts a token in before the token of the given number. -/
def putBefore (s : Supply) (number : Nat) (t : Token) : Supply :=
  let n := number - s.taken
  { s with waiting := s.waiting.take n ++ t :: s.waiting.drop n }

/-- Moves over blank lines and comments.  After the end of a line a key may follow, unless a flow
collection is open. -/
def skipGap (s : Supply) : (fuel : Nat) → Except Error Supply
  | 0 => .ok s
  | fuel + 1 => do
    let (_, s) ← s.scan Scan.comment
    let (br, s) ← s.scan Scan.lineBreak
    if br.isEmpty then return s
    ({ s with keyAllowed := s.keyAllowed || !s.inFlow }).skipGap fuel

/-- Fails in a block collection where no key may stand. -/
def needKeyAllowed (s : Supply) (problem : Problem) : Except Error Unit :=
  if !s.inFlow && !s.keyAllowed then .error (.malformed ⟨none, none, problem, s.mark⟩) else .ok ()

/-- The end of the text closes everything. -/
def addStreamEnd (s : Supply) : Except Error Supply := do
  let s ← (s.unwind (-1)).dropKey
  return { s.addHere .streamEnd with keyAllowed := false, keys := [], finished := true }

def addDirective (s : Supply) : Except Error Supply := do
  let s ← (s.unwind (-1)).dropKey
  let start := s.mark
  let (d, s) ← s.scan directive
  return { s.add ⟨.directive d, start, s.mark⟩ with keyAllowed := false }

def addMarker (s : Supply) (kind : TokenKind) : Except Error Supply := do
  let s ← (s.unwind (-1)).dropKey
  return { s.addNext kind 3 with keyAllowed := false }

def addFlowStart (s : Supply) (kind : TokenKind) : Except Error Supply := do
  let s ← s.noteKey
  return { s.addNext kind 1 with depth := s.depth + 1, keyAllowed := true }

def addFlowEnd (s : Supply) (kind : TokenKind) : Except Error Supply := do
  let s ← s.dropKey
  return { s.addNext kind 1 with depth := s.depth - 1, keyAllowed := false }

def addFlowEntry (s : Supply) : Except Error Supply := do
  let s ← s.dropKey
  return { s.addNext .flowEntry 1 with keyAllowed := true }

def addBlockEntry (s : Supply) : Except Error Supply := do
  s.needKeyAllowed .entryNotAllowed
  let s := if s.inFlow then s else s.openHere .blockSequenceStart
  let s ← s.dropKey
  return { s.addNext .blockEntry 1 with keyAllowed := true }

def addKey (s : Supply) : Except Error Supply := do
  s.needKeyAllowed .keyNotAllowed
  let s := if s.inFlow then s else s.openHere .blockMappingStart
  let s ← s.dropKey
  return { s.addNext .key 1 with keyAllowed := !s.inFlow }

/-- A colon makes the possible key a key; without one it stands for an empty key. -/
def addValue (s : Supply) : Except Error Supply := do
  match s.keys.lookup s.depth with
  | some k =>
    let s := { s with keys := s.keys.filter fun k => k.1 != s.depth, keyAllowed := false }
    let s := s.putBefore k.number ⟨.key, k.mark, k.mark⟩
    let s :=
      if !s.inFlow && s.opens k.mark.column then
        (s.putBefore k.number ⟨.blockMappingStart, k.mark, k.mark⟩).openAt k.mark.column
      else s
    return s.addNext .value 1
  | none =>
    s.needKeyAllowed .valueNotAllowed
    let s := if s.inFlow then s else s.openHere .blockMappingStart
    let s ← { s with keyAllowed := !s.inFlow }.dropKey
    return s.addNext .value 1

/-- A token that may be a key. -/
def addNode (s : Supply) (r : Scan TokenKind) : Except Error Supply := do
  let s ← s.noteKey
  let start := s.mark
  let (kind, s) ← { s with keyAllowed := false }.scan r
  return s.add ⟨kind, start, s.mark⟩

def addPlain (s : Supply) : Except Error Supply := do
  let s ← s.noteKey
  let start := s.mark
  let (p, s) ← s.scan (plainScalar s.inFlow (s.indent + 1))
  return { s.add ⟨.scalar (String.ofList p.text) true, start, s.mark⟩ with keyAllowed := p.passedBreak }

def addBlockScalar (s : Supply) (fold : Bool) : Except Error Supply := do
  let s ← { s with keyAllowed := true }.dropKey
  let start := s.mark
  let (text, s) ← s.scan (blockScalar fold s.indent)
  return s.add ⟨.scalar (String.ofList text) false, start, s.mark⟩

def indicators : List Char := "-?:,[]\x7b\x7d#&*!|>'\"%@\x60".toList

/-- Whether a plain scalar starts at the cursor. -/
def startsPlain (s : Supply) : Bool :=
  let c := s.cursor.peek
  !(isGapOrTab c || indicators.contains c) ||
    (!isGapOrTab (s.cursor.peek 1) && (c == '-' || (!s.inFlow && (c == '?' || c == ':'))))

/-- Whether three equal characters at the start of a line are a document marker. -/
def atMarker (s : Supply) (c : Char) : Bool :=
  s.cursor.column == 0 && s.cursor.peek 0 == c && s.cursor.peek 1 == c && s.cursor.peek 2 == c &&
    isGapOrTab (s.cursor.peek 3)

/-- Adds the token at the cursor. -/
def addAtCursor (s : Supply) : Except Error Supply :=
  let c := s.cursor.peek
  let separate := isGapOrTab (s.cursor.peek 1)
  let text (double : Bool) : Scan TokenKind := do
    return .scalar (String.ofList (← quotedScalar double)) false
  if c == '\x00' then s.addStreamEnd
  else if c == '%' && s.cursor.column == 0 then s.addDirective
  else if s.atMarker '-' then s.addMarker .documentStart
  else if s.atMarker '.' then s.addMarker .documentEnd
  else if c == '[' then s.addFlowStart .flowSequenceStart
  else if c == '\x7b' then s.addFlowStart .flowMappingStart
  else if c == ']' then s.addFlowEnd .flowSequenceEnd
  else if c == '\x7d' then s.addFlowEnd .flowMappingEnd
  else if c == ',' then s.addFlowEntry
  else if c == '-' && separate then s.addBlockEntry
  else if c == '?' && (s.inFlow || separate) then s.addKey
  else if c == ':' && (s.inFlow || separate) then s.addValue
  else if c == '*' then s.addNode (do return .reference (← anchorName .aliasName))
  else if c == '&' then s.addNode (do return .anchor (← anchorName .anchor))
  else if c == '!' then s.addNode (do return .tag (← tagText))
  else if c == '|' && !s.inFlow then s.addBlockScalar false
  else if c == '>' && !s.inFlow then s.addBlockScalar true
  else if c == '\'' then s.addNode (text false)
  else if c == '"' then s.addNode (text true)
  else if s.startsPlain then s.addPlain
  else .error (.malformed ⟨some .nextToken, none, .badStart c, s.mark⟩)

/-- Finds at least one more token. -/
def more (s : Supply) : Except Error Supply := do
  let s := if s.cursor.index == 0 && s.cursor.peek == '\uFEFF' then { s with cursor := s.cursor.step } else s
  let s ← s.skipGap (s.cursor.size + 1)
  let s ← s.dropStale
  (s.unwind s.cursor.column).addAtCursor

/-- Whether the first token is a possible key, so that tokens may yet be put before it. -/
def isUndecided (s : Supply) : Bool := (s.keys.map fun k => k.2.number).min? == some s.taken

/-- Finds tokens until the first one is certain. -/
def fill : (fuel : Nat) → Supply → Except Error Supply
  | 0, s => .ok s
  | fuel + 1, s => do
    if s.finished then return s
    if s.waiting.isEmpty then fill fuel (← s.more)
    else
      let s ← s.dropStale
      if s.isUndecided then fill fuel (← s.more) else return s

end Supply

namespace Parse

/-- The next token, which stays where it is. -/
def peek : Parse Token := do
  let s ← get
  let s ← Supply.fill (s.cursor.size + 2) s
  set s
  return s.waiting.headD ⟨.streamEnd, s.mark, s.mark⟩

/-- The kind of the next token. -/
def kind : Parse TokenKind := return (← peek).kind

/-- Takes the next token. -/
def take : Parse Token := do
  let t ← peek
  modify fun s => { s with waiting := s.waiting.drop 1, taken := s.taken + 1 }
  return t

end Parse

end BlockSketch.Yaml
