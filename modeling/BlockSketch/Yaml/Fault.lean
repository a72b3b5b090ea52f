import BlockSketch.Text.Base64
import BlockSketch.Text.Utf8

/-!
# Faults of YAML texts

What is wrong with a text, what was being read, and where.  Messages name the file and count lines and
columns from one.
-/

namespace BlockSketch.Yaml

/-- A place in a text: its distance from the start, and line and column, all from zero. -/
structure Mark where
  index : Nat
  line : Nat
  column : Nat
  deriving DecidableEq, Repr

/-- Whether two places are shown alike. -/
def Mark.looksLike (m n : Mark) : Bool := m.line == n.line && m.column == n.column

def Mark.text (file : String) (m : Mark) : String :=
  s!"  in \"{file}\", line {m.line + 1}, column {m.column + 1}"

/-- What was being read, often since an earlier place. -/
inductive Context where
  | nextToken
  | simpleKey
  | directive
  | directiveText
  | aliasName
  | anchor
  | tag
  | tagText
  | blockScalar
  | quoted
  | doubleQuoted
  | node
  | blockNode
  | flowNode
  | blockSequence
  | blockMapping
  | flowSequence
  | flowMapping
  | mapping
  | orderedMap
  | pairs
  | singleDocument
  | firstAnchor (name : String)
  deriving DecidableEq, Repr

def Context.message : Context → String
  | nextToken => "while scanning for the next token"
  | simpleKey => "while scanning a simple key"
  | directive => "while scanning a directive"
  | directiveText => "while parsing a directive"
  | aliasName => "while scanning an alias"
  | anchor => "while scanning an anchor"
  | tag => "while scanning a tag"
  | tagText => "while parsing a tag"
  | blockScalar => "while scanning a block scalar"
  | quoted => "while scanning a quoted scalar"
  | doubleQuoted => "while scanning a double-quoted scalar"
  | node => "while parsing a node"
  | blockNode => "while parsing a block node"
  | flowNode => "while parsing a flow node"
  | blockSequence => "while parsing a block collection"
  | blockMapping => "while parsing a block mapping"
  | flowSequence => "while parsing a flow sequence"
  | flowMapping => "while parsing a flow mapping"
  | mapping => "while constructing a mapping"
  | orderedMap => "while constructing an ordered map"
  | pairs => "while constructing pairs"
  | singleDocument => "expected a single document in the stream"
  | firstAnchor name => s!"found duplicate anchor {Text.quoted name}; first occurrence"

/-- What is wrong.  The end of the text counts as a null character. -/
inductive Problem where
  | badStart (found : Char)
  | missingColon
  | entryNotAllowed
  | keyNotAllowed
  | valueNotAllowed
  | notName (found : Char)
  | notDigit (found : Char)
  | notPoint (found : Char)
  | notVersionEnd (found : Char)
  | notSpace (found : Char)
  | notLineEnd (found : Char)
  | notExclamation (found : Char)
  | notAngle (found : Char)
  | notUri (found : Char)
  | notUriEscape (found : Char)
  | badUri (fault : Utf8.Fault)
  | zeroIndentation
  | notIndicators (found : Char)
  | notHex (digits : Nat) (found : Char)
  | unknownEscape (found : Char)
  | endOfStream
  | documentSeparator
  | notDocumentStart (found : String)
  | secondVersion
  | incompatibleVersion
  | secondHandle (handle : String)
  | unknownHandle (handle : String)
  | notContent (found : String)
  | notBlockEnd (found : String)
  | notSequenceEnd (found : String)
  | notMappingEnd (found : String)
  | unknownAlias (name : String)
  | secondAnchor
  | anotherDocument
  | wrongKind (wanted found : String)
  | notMergeable (found : String)
  | notMergeables (found : String)
  | unhashable
  | notItems (found : String)
  | notEntry (found : String)
  | notOneEntry (found : Nat)
  | unknownTag (tag : String)
  | notAscii (fault : Text.EncodingFault)
  | notBytes (fault : Text.Base64.Fault)
  deriving DecidableEq, Repr

/-- A character as messages show it. -/
def shownChar (c : Char) : String := Text.quoted (String.ofList [c])

/-- What is said of a text in base sixty-four. -/
def base64Message : Text.Base64.Fault → String
  | .loneLetter letters =>
    s!"Invalid base64-encoded string: number of data characters ({letters}) cannot be 1 more than a " ++
      "multiple of 4"
  | .badPadding => "Incorrect padding"

def Problem.message : Problem → String
  | badStart c => s!"found character {shownChar c} that cannot start any token"
  | missingColon => "could not find expected ':'"
  | entryNotAllowed => "sequence entries are not allowed here"
  | keyNotAllowed => "mapping keys are not allowed here"
  | valueNotAllowed => "mapping values are not allowed here"
  | notName c => s!"expected alphabetic or numeric character, but found {shownChar c}"
  | notDigit c => s!"expected a digit, but found {shownChar c}"
  | notPoint c => s!"expected a digit or '.', but found {shownChar c}"
  | notVersionEnd c => s!"expected a digit or ' ', but found {shownChar c}"
  | notSpace c => s!"expected ' ', but found {shownChar c}"
  | notLineEnd c => s!"expected a comment or a line break, but found {shownChar c}"
  | notExclamation c => s!"expected '!', but found {shownChar c}"
  | notAngle c => s!"expected '>', but found {shownChar c}"
  | notUri c => s!"expected URI, but found {shownChar c}"
  | notUriEscape c =>
    s!"expected URI escape sequence of 2 hexadecimal numbers, but found {shownChar c}"
  | badUri fault => fault.message
  | zeroIndentation => "expected indentation indicator in the range 1-9, but found 0"
  | notIndicators c => s!"expected chomping or indentation indicators, but found {shownChar c}"
  | notHex digits c =>
    s!"expected escape sequence of {digits} hexadecimal numbers, but found {shownChar c}"
  | unknownEscape c => s!"found unknown escape character {shownChar c}"
  | endOfStream => "found unexpected end of stream"
  | documentSeparator => "found unexpected document separator"
  | notDocumentStart found => s!"expected '<document start>', but found {Text.quoted found}"
  | secondVersion => "found duplicate YAML directive"
  | incompatibleVersion => "found incompatible YAML document (version 1.* is required)"
  | secondHandle handle => s!"duplicate tag handle {Text.quoted handle}"
  | unknownHandle handle => s!"found undefined tag handle {Text.quoted handle}"
  | notContent found => s!"expected the node content, but found {Text.quoted found}"
  | notBlockEnd found => s!"expected <block end>, but found {Text.quoted found}"
  | notSequenceEnd found => s!"expected ',' or ']', but got {Text.quoted found}"
  | notMappingEnd found => s!"expected ',' or '\x7d', but got {Text.quoted found}"
  | unknownAlias name => s!"found undefined alias {Text.quoted name}"
  | secondAnchor => "second occurrence"
  | anotherDocument => "but found another document"
  | wrongKind wanted found => s!"expected a {wanted} node, but found {found}"
  | notMergeable found => s!"expected a mapping for merging, but found {found}"
  | notMergeables found => s!"expected a mapping or list of mappings for merging, but found {found}"
  | unhashable => "found unhashable key"
  | notItems found => s!"expected a sequence, but found {found}"
  | notEntry found => s!"expected a mapping of length 1, but found {found}"
  | notOneEntry found => s!"expected a single mapping item, but found {found} items"
  | unknownTag tag => s!"could not determine a constructor for the tag {Text.quoted tag}"
  | notAscii fault => s!"failed to convert base64 data into ascii: {fault.message}"
  | notBytes fault => s!"failed to decode base64 data: {base64Message fault}"

/-- A problem at a place, with what was being read. -/
structure Fault where
  context : Option Context := none
  since : Option Mark := none
  problem : Problem
  place : Mark
  deriving DecidableEq, Repr

/-- The lines of a message.  Where the reading began is left out if it is where the problem is. -/
def Fault.lines (file : String) (f : Fault) : List String :=
  (f.context.map Context.message).toList ++
    ((f.since.filter (!·.looksLike f.place)).map (Mark.text file)).toList ++
    [f.problem.message, f.place.text file]

def Fault.message (file : String) (f : Fault) : String := "\n".intercalate (f.lines file)

end BlockSketch.Yaml
