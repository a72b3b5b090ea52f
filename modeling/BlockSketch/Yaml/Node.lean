import BlockSketch.Yaml.Plain
import BlockSketch.Yaml.Token

/-!
# Nodes

The graph that the tokens of a document make.  Every node has a number and a sort: the one that its tag
names, or the one that its form suggests.  An alias is the node of its anchor, so that a node can be in
several places, and a collection inside itself.
-/

namespace BlockSketch.Yaml

/-- What a node is made of; the nodes in it are given by their numbers. -/
inductive Form where
  | scalar (text : String)
  | sequence (items : List Nat)
  | mapping (entries : List (Nat × Nat))
  deriving Inhabited

/-- The name of a form in messages. -/
def Form.name : Form → String
  | scalar _ => "scalar"
  | sequence _ => "sequence"
  | mapping _ => "mapping"

/-- A node and where it starts. -/
structure Node where
  sort : ValueSort
  form : Form
  start : Mark

/-- Nodes by their numbers. -/
abbrev Graph := Array Node

namespace Graph

/-- The node of a number. -/
def node (g : Graph) (n : Nat) : Node := g.getD n ⟨.null, .scalar "", ⟨0, 0, 0⟩⟩

/-- The graph in which a node is made of something else. -/
def reform (g : Graph) (n : Nat) (form : Form) : Graph := g.modify n fun node => { node with form := form }

end Graph

/-- How deeply nodes can be nested. -/
def maxDepth : Nat := 488

/-- The nodes of a document as far as they are found, and the names that it can use: tag handles, and
anchors with their nodes. -/
structure Draft where
  handles : List (String × String)
  anchors : List (String × Nat) := []
  nodes : Graph := #[]

/-- The handles that need no directive. -/
def standardHandles : List (String × String) := [("!", "!"), ("!!", ValueSort.standardTags)]

/-- A reader of nodes. -/
abbrev Compose := StateT Draft Parse

namespace Compose

def peek : Compose Token := Parse.peek

def kind : Compose TokenKind := Parse.kind

def take : Compose Token := Parse.take

/-- Stops with a problem at the next token, which is named. -/
def fail {α : Type} (context : Context) (since : Mark) (problem : String → Problem) : Compose α := do
  let t ← peek
  throw (.malformed ⟨some context, some since, problem t.kind.id, t.start⟩)

/-- Anchor and tag of a node, and where they start. -/
structure Properties where
  anchor : Option String := none
  tag : Option (TagText × Mark) := none
  start : Option Mark := none

/-- Anchor and tag in either order. -/
def properties : Compose Properties := do
  match ← kind with
  | .anchor name =>
    let t ← take
    match ← kind with
    | .tag text => return ⟨some name, some (text, (← take).start), some t.start⟩
    | _ => return ⟨some name, none, some t.start⟩
  | .tag text =>
    let t ← take
    match ← kind with
    | .anchor name =>
      let _ ← take
      return ⟨some name, some (text, t.start), some t.start⟩
    | _ => return ⟨none, some (text, t.start), some t.start⟩
  | _ => return {}

/-- The tag of a node in full. -/
def fullTag (p : Properties) : Compose (Option String) := do
  match p.tag with
  | none => return none
  | some (⟨none, suffix⟩, _) => return some suffix
  | some (⟨some handle, suffix⟩, place) =>
    match (← get).handles.lookup handle with
    | some start => return some (start ++ suffix)
    | none => throw (.malformed ⟨some .node, p.start, .unknownHandle handle, place⟩)

/-- The sort of a collection. -/
def sortOf (tag : Option String) (default : ValueSort) : ValueSort :=
  match tag with
  | none => default
  | some "!" => default
  | some tag => .ofTag tag

/-- The sort of a scalar.  Only plain scalars are looked at, and those with the empty tag. -/
def scalarSort (tag : Option String) (plain : Bool) (text : String) : ValueSort :=
  match tag with
  | none => if plain then Plain.sort text else .text
  | some "!" => Plain.sort text
  | some tag => .ofTag tag

/-- Makes a node, which gets the next number. -/
def make (sort : ValueSort) (form : Form) (start : Mark) : Compose Nat :=
  modifyGet fun s => (s.nodes.size, { s with nodes := s.nodes.push ⟨sort, form, start⟩ })

/-- The node that stands where nothing is written. -/
def makeEmpty (start : Mark) : Compose Nat := make .null (.scalar "") start

/-- Stops if an anchor has a node already. -/
def checkAnchor (name : Option String) (start : Mark) : Compose Unit := do
  let s ← get
  match name.bind fun name => (s.anchors.lookup name).map (name, ·) with
  | none => return
  | some (name, n) =>
    throw (.malformed ⟨some (.firstAnchor name), some (s.nodes.node n).start, .secondAnchor, start⟩)

/-- Gives an anchor its node. -/
def setAnchor (name : Option String) (n : Nat) : Compose Unit := do
  if let some name := name then modify fun s => { s with anchors := (name, n) :: s.anchors }

/-- Makes a node with an anchor. -/
def makeAnchored (name : Option String) (sort : ValueSort) (form : Form) (start : Mark) :
    Compose Nat := do
  let n ← make sort form start
  setAnchor name n
  return n

/-- Makes a collection, which has its number and its anchor before what is in it is read. -/
def makeAround (name : Option String) (sort : ValueSort) (start : Mark) (read : Compose Form) :
    Compose Nat := do
  let n ← makeAnchored name sort (.sequence []) start
  let form ← read
  modify fun s => { s with nodes := s.nodes.reform n form }
  return n

/-- The node of an alias. -/
def aliased (name : String) (t : Token) : Compose Nat := do
  match (← get).anchors.lookup name with
  | none => throw (.malformed ⟨none, none, .unknownAlias name, t.start⟩)
  | some n => return n

mutual

/-- The node at the cursor, inside `depth` others.  In a block it may be a block collection, and as a
value of a mapping a sequence that is not indented.  Every call takes a token before or after a few calls
that take none, so that a multiple of the length of the text is fuel enough. -/
def node (inBlock flatSequence : Bool) (depth : Nat) : (fuel : Nat) → Compose Nat
  | 0 => do makeEmpty (← peek).start
  | fuel + 1 => do
    if maxDepth < depth then throw .tooDeep
    if let .reference name := ← kind then return ← aliased name (← take)
    let p ← properties
    let tag ← fullTag p
    let next ← peek
    let start := p.start.getD next.start
    match next.kind with
    | .scalar text plain =>
      checkAnchor p.anchor start
      let _ ← take
      makeAnchored p.anchor (scalarSort tag plain text) (.scalar text) start
    | .flowSequenceStart =>
      checkAnchor p.anchor start
      let t ← take
      makeAround p.anchor (sortOf tag .sequence) start do
        return .sequence (← flowItems t.start true (depth + 1) fuel)
    | .flowMappingStart =>
      checkAnchor p.anchor start
      let t ← take
      makeAround p.anchor (sortOf tag .mapping) start do
        return .mapping (← flowEntries t.start true (depth + 1) fuel)
    | other =>
      if flatSequence && other == .blockEntry then
        checkAnchor p.anchor start
        makeAround p.anchor (sortOf tag .sequence) start do
          return .sequence (← flatItems (depth + 1) fuel)
      else if inBlock && other == .blockSequenceStart then
        checkAnchor p.anchor start
        let t ← take
        makeAround p.anchor (sortOf tag .sequence) start do
          return .sequence (← blockItems t.start (depth + 1) fuel)
      else if inBlock && other == .blockMappingStart then
        checkAnchor p.anchor start
        let t ← take
        makeAround p.anchor (sortOf tag .mapping) start do
          return .mapping (← blockEntries t.start (depth + 1) fuel)
      else if p.start.isSome then
        checkAnchor p.anchor start
        makeAnchored p.anchor (scalarSort tag true "") (.scalar "") start
      else fail (if inBlock then .blockNode else .flowNode) start .notContent
termination_by structural fuel => fuel

/-- The items of a block sequence. -/
def blockItems (since : Mark) (depth : Nat) : (fuel : Nat) → Compose (List Nat)
  | 0 => return []
  | fuel + 1 => do
    match ← kind with
    | .blockEntry =>
      let t ← take
      let item ← match ← kind with
        | .blockEntry => makeEmpty t.stop
        | .blockEnd => makeEmpty t.stop
        | _ => node true false depth fuel
      return item :: (← blockItems since depth fuel)
    | .blockEnd =>
      let _ ← take
      return []
    | _ => fail .blockSequence since .notBlockEnd
termination_by structural fuel => fuel

/-- The items of a sequence that is not indented. -/
def flatItems (depth : Nat) : (fuel : Nat) → Compose (List Nat)
  | 0 => return []
  | fuel + 1 => do
    match ← kind with
    | .blockEntry =>
      let t ← take
      let item ← match ← kind with
        | .blockEntry => makeEmpty t.stop
        | .key => makeEmpty t.stop
        | .value => makeEmpty t.stop
        | .blockEnd => makeEmpty t.stop
        | _ => node true false depth fuel
      return item :: (← flatItems depth fuel)
    | _ => return []
termination_by structural fuel => fuel

/-- What follows the indicator of a key or a value in a block mapping. -/
def blockPart (t : Token) (depth : Nat) : (fuel : Nat) → Compose Nat
  | 0 => makeEmpty t.stop
  | fuel + 1 => do
    match ← kind with
    | .key => makeEmpty t.stop
    | .value => makeEmpty t.stop
    | .blockEnd => makeEmpty t.stop
    | _ => node true true depth fuel
termination_by structural fuel => fuel

/-- The entries of a block mapping. -/
def blockEntries (since : Mark) (depth : Nat) : (fuel : Nat) → Compose (List (Nat × Nat))
  | 0 => return []
  | fuel + 1 => do
    match ← kind with
    | .key =>
      let key ← blockPart (← take) depth fuel
      let value ← match ← kind with
        | .value => blockPart (← take) depth fuel
        | _ => do makeEmpty (← peek).start
      return (key, value) :: (← blockEntries since depth fuel)
    | .blockEnd =>
      let _ ← take
      return []
    | _ => fail .blockMapping since .notBlockEnd
termination_by structural fuel => fuel

/-- What follows the indicator of a key in a flow collection. -/
def flowKey (t : Token) (close : TokenKind) (depth : Nat) : (fuel : Nat) → Compose Nat
  | 0 => makeEmpty t.stop
  | fuel + 1 => do
    let next ← kind
    if next == .value || next == .flowEntry || next == close then makeEmpty t.stop
    else node false false depth fuel
termination_by structural fuel => fuel

/-- The value of a key in a flow collection, with its indicator. -/
def flowValue (close : TokenKind) (depth : Nat) : (fuel : Nat) → Compose Nat
  | 0 => do makeEmpty (← peek).start
  | fuel + 1 => do
    match ← kind with
    | .value =>
      let t ← take
      let next ← kind
      if next == .flowEntry || next == close then makeEmpty t.stop else node false false depth fuel
    | _ => makeEmpty (← peek).start
termination_by structural fuel => fuel

/-- The items of a flow sequence; a key among them makes a mapping of one entry. -/
def flowItems (since : Mark) (first : Bool) (depth : Nat) : (fuel : Nat) → Compose (List Nat)
  | 0 => return []
  | fuel + 1 => do
    if !first then
      match ← kind with
      | .flowEntry => let _ ← take
      | .flowSequenceEnd => pure ()
      | _ => fail .flowSequence since .notSequenceEnd
    match ← kind with
    | .flowSequenceEnd =>
      let _ ← take
      return []
    | .key =>
      let t ← take
      let key ← flowKey t .flowSequenceEnd (depth + 1) fuel
      let value ← flowValue .flowSequenceEnd (depth + 1) fuel
      let entry ← make .mapping (.mapping [(key, value)]) t.start
      return entry :: (← flowItems since false depth fuel)
    | _ =>
      let item ← node false false depth fuel
      return item :: (← flowItems since false depth fuel)
termination_by structural fuel => fuel

/-- The entries of a flow mapping. -/
def flowEntries (since : Mark) (first : Bool) (depth : Nat) : (fuel : Nat) → Compose (List (Nat × Nat))
  | 0 => return []
  | fuel + 1 => do
    if !first then
      match ← kind with
      | .flowEntry => let _ ← take
      | .flowMappingEnd => pure ()
      | _ => fail .flowMapping since .notMappingEnd
    match ← kind with
    | .flowMappingEnd =>
      let _ ← take
      return []
    | .key =>
      let key ← flowKey (← take) .flowMappingEnd depth fuel
      let value ← flowValue .flowMappingEnd depth fuel
      return (key, value) :: (← flowEntries since false depth fuel)
    | _ =>
      let key ← node false false depth fuel
      let value ← makeEmpty (← peek).start
      return (key, value) :: (← flowEntries since false depth fuel)
termination_by structural fuel => fuel

end

/-! ## Documents -/

/-- The directives before a document: the version, if any, and the tag handles. -/
def directives (version : Bool) (handles : List (String × String)) :
    (fuel : Nat) → Compose (List (String × String))
  | 0 => return handles
  | fuel + 1 => do
    let t ← peek
    match t.kind with
    | .directive found =>
      let _ ← take
      match found with
      | .version major _ =>
        if version then throw (.malformed ⟨none, none, .secondVersion, t.start⟩)
        if major ≠ 1 then throw (.malformed ⟨none, none, .incompatibleVersion, t.start⟩)
        directives true handles fuel
      | .tag handle suffix =>
        if (handles.lookup handle).isSome then throw (.malformed ⟨none, none, .secondHandle handle, t.start⟩)
        directives version ((handle, suffix) :: handles) fuel
      | .other _ => directives version handles fuel
    | _ => return handles

/-- Moves over markers for the end of a document. -/
def skipDocumentEnds : (fuel : Nat) → Compose Unit
  | 0 => return
  | fuel + 1 => do
    if (← kind) == .documentEnd then
      let _ ← take
      skipDocumentEnds fuel

/-- The start of a document with its directives; `none` at the end of the text. -/
def documentStart? (fuel : Nat) : Compose (Option Mark) := do
  skipDocumentEnds fuel
  if (← kind) == .streamEnd then return none
  let start := (← peek).start
  let handles ← directives false [] fuel
  modify fun s => { s with handles := handles ++ standardHandles }
  let t ← peek
  if t.kind != .documentStart then throw (.malformed ⟨none, none, .notDocumentStart t.kind.id, t.start⟩)
  let _ ← take
  return some start

/-- Whether a token cannot be part of a document. -/
def endsDocument : TokenKind → Bool
  | .directive _ => true
  | .documentStart => true
  | .documentEnd => true
  | .streamEnd => true
  | _ => false

/-- The content of a document after its start. -/
def content (fuel : Nat) : Compose Nat := do
  let t ← peek
  if endsDocument t.kind then makeEmpty t.start else node true false 0 fuel

/-- The first document of a text; `none` if there is none. -/
def first? (fuel : Nat) : Compose (Option Nat) := do
  match ← kind with
  | .streamEnd => return none
  | .directive _ => startedFirst
  | .documentStart => startedFirst
  | _ => return some (← node true false 0 fuel)
where
  startedFirst : Compose (Option Nat) := do
    match ← documentStart? fuel with
    | none => return none
    | some _ => return some (← content fuel)

/-- The only document of a text; `none` if there is none. -/
def single? (fuel : Nat) : Compose (Option Nat) := do
  match ← first? fuel with
  | none => return none
  | some root =>
    skipDocumentEnds 1
    match ← documentStart? fuel with
    | none => return some root
    | some start =>
      let since := ((← get).nodes.node root).start
      throw (.malformed ⟨some .singleDocument, some since, .anotherDocument, start⟩)

end Compose

end BlockSketch.Yaml
