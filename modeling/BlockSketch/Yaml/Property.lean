import BlockSketch.Yaml.Scalar

/-!
# Names, tags and directives

What can stand before a node or a document: anchors and aliases, tags, and directives on versions and
tag handles.
-/

namespace BlockSketch.Yaml

open Scan

/-- What may follow the name of an anchor. -/
def endsAnchor (c : Char) : Bool :=
  isGapOrTab c || c == '?' || c == ':' || c == ',' || c == ']' || c == '\x7d' || c == '%' ||
    c == '@' || c == '\x60'

/-- The name of an anchor or an alias after its indicator. -/
def anchorName (context : Context) : Scan String := do
  let since ← mark
  step
  let name ← takeWhile isNameChar
  if name.isEmpty then fail context since (.notName (← peek))
  need endsAnchor context since .notName
  return String.ofList name

/-- A tag as it is written: a handle, if any, and what follows it. -/
structure TagText where
  handle : Option String
  suffix : String
  deriving DecidableEq, Repr

/-- Which reader of tags is at work. -/
inductive TagPlace where
  | node
  | directive
  deriving DecidableEq, Repr

def TagPlace.scanning : TagPlace → Context
  | node => .tag
  | directive => .directive

def TagPlace.parsing : TagPlace → Context
  | node => .tagText
  | directive => .directiveText

/-- Whether a character may stand in a tag. -/
def isTagChar (c : Char) : Bool := c.isAlphanum || "-;/?:@&=+$,_.!~*'()[]".toList.contains c

/-- A handle: one exclamation mark, or a name between two. -/
def tagHandle (place : TagPlace) (since : Mark) : Scan String := do
  need (· == '!') place.scanning since .notExclamation
  let c ← get
  if c.peek 1 == ' ' then
    step
    return "!"
  let name := (c.rest.drop 1).takeWhile isNameChar
  advance (name.length + 1)
  let found := c.peek (name.length + 1)
  if found != '!' then fail place.scanning since (.notExclamation found)
  step
  return String.ofList ('!' :: name ++ ['!'])

/-- The bytes of a row of percent escapes. -/
def tagBytes (place : TagPlace) (since : Mark) : (fuel : Nat) → Scan (List UInt8)
  | 0 => return []
  | fuel + 1 => do
    if (← peek) != '%' then return []
    step
    match hexNumber (← get) 2 with
    | .error found => fail place.scanning since (.notUriEscape found)
    | .ok n =>
      advance 2
      return n.toUInt8 :: (← tagBytes place since fuel)

/-- The characters of a tag, percent escapes decoded. -/
def tagChars (place : TagPlace) (since : Mark) : (fuel : Nat) → Scan (List Char)
  | 0 => return []
  | fuel + 1 => do
    let run ← takeWhile isTagChar
    if (← peek) != '%' then return run
    let start ← mark
    match Utf8.decode (← tagBytes place since (← Scan.fuel)) with
    | .error fault => throw (.malformed ⟨some place.scanning, some since, .badUri fault, start⟩)
    | .ok cs => return run ++ cs ++ (← tagChars place since fuel)

/-- The suffix of a tag, which must not be empty. -/
def tagSuffix (place : TagPlace) (since : Mark) : Scan String := do
  let cs ← tagChars place since (← fuel)
  if cs.isEmpty then fail place.parsing since (.notUri (← peek))
  return String.ofList cs

/-- The handle and the suffix of a tag before the gap that ends it. -/
def tagParts (since : Mark) : Scan TagText := do
  let c ← get
  if c.peek 1 == '<' then
    advance 2
    let suffix ← tagSuffix .node since
    need (· == '>') .tagText since .notAngle
    step
    return ⟨none, suffix⟩
  if isGapOrTab (c.peek 1) then
    step
    return ⟨none, "!"⟩
  if ((c.rest.drop 1).takeWhile (!isGap ·)).contains '!' then
    let handle ← tagHandle .node since
    return ⟨some handle, ← tagSuffix .node since⟩
  step
  return ⟨some "!", ← tagSuffix .node since⟩

/-- A tag before a node. -/
def tagText : Scan TagText := do
  let since ← mark
  let tag ← tagParts since
  need isGap .tag since .notSpace
  return tag

/-- A line about the whole document. -/
inductive Directive where
  | version (major minor : Nat)
  | tag (handle suffix : String)
  | other (name : String)
  deriving DecidableEq, Repr

/-- A number of a version. -/
def versionNumber (since : Mark) : Scan Nat := do
  need (fun c => '0' ≤ c && c ≤ '9') .directive since .notDigit
  let digits := (← get).span fun c => '0' ≤ c && c ≤ '9'
  match Numeral.ofDigits digits with
  | .error fault => throw (.value (.numeral fault))
  | .ok n =>
    advance digits.length
    return n

def versionDirective (since : Mark) : Scan Directive := do
  skipWhile (· == ' ')
  let major ← versionNumber since
  need (· == '.') .directive since .notPoint
  step
  let minor ← versionNumber since
  need isGap .directive since .notVersionEnd
  return .version major minor

def tagDirective (since : Mark) : Scan Directive := do
  skipWhile (· == ' ')
  let handle ← tagHandle .directive since
  need (· == ' ') .directive since .notSpace
  skipWhile (· == ' ')
  let suffix ← tagSuffix .directive since
  need isGap .directive since .notSpace
  return .tag handle suffix

/-- A directive with the rest of its line. -/
def directive : Scan Directive := do
  let since ← mark
  step
  let name ← takeWhile isNameChar
  if name.isEmpty then fail .directive since (.notName (← peek))
  need isGap .directive since .notName
  let found ← match String.ofList name with
    | "YAML" => versionDirective since
    | "TAG" => tagDirective since
    | name => do
      skipWhile (!isEnd ·)
      pure (.other name)
  ignoredLine .directive since
  return found

end BlockSketch.Yaml
