import BlockSketch.Document.Slots
import BlockSketch.Yaml.Node

/-!
# Objects

What the nodes of a document stand for.  A node has one object, wherever it stands.  A collection is made
empty and waits; those that wait are filled in the order in which they were made, so that of two faults
the one of lower nesting counts, and on one level the first.
-/

namespace BlockSketch.Yaml

/-- What a node stands for; the nodes in a collection are given by their numbers. -/
inductive Object where
  | scalar (value : Document)
  | list (items : List Nat)
  | map (entries : List (Document × Nat))
  | keys (members : List Document)
  | pairs (entries : List (Nat × Nat))

/-- The nodes of a document with the objects that are made so far, and the nodes whose collections are
still to be filled, the latest first. -/
structure Workshop where
  nodes : Graph
  objects : Array (Option Object)
  waiting : List Nat := []

/-- A maker of objects. -/
abbrev Make := StateT Workshop (Except Error)

namespace Make

/-- Stops with a problem of form. -/
def fail {α : Type} (problem : Problem) (place : Mark) : Make α :=
  throw (.malformed ⟨none, none, problem, place⟩)

/-- Stops with a problem of form inside something that starts earlier. -/
def failIn {α : Type} (context : Context) (since : Mark) (problem : Problem) (place : Mark) : Make α :=
  throw (.malformed ⟨some context, some since, problem, place⟩)

def node (n : Nat) : Make Node := return (← get).nodes.node n

def setObject (n : Nat) (object : Object) : Make Unit :=
  modify fun s => { s with objects := s.objects.set! n (some object) }

def setForm (n : Nat) (form : Form) : Make Unit :=
  modify fun s => { s with nodes := s.nodes.reform n form }

/-! ## Scalars -/

/-- How many nodes a text can be passed on through. -/
def maxPassing : Nat := 970

/-- The text of a node.  A mapping passes on the text under its key for a value. -/
def text : (fuel : Nat) → Nat → Make String
  | 0, _ => throw .tooDeep
  | fuel + 1, n => do
    let g := (← get).nodes
    let node := g.node n
    match node.form with
    | .scalar text => return text
    | .sequence _ => fail (.wrongKind "scalar" node.form.name) node.start
    | .mapping entries =>
      match entries.find? fun e => (g.node e.1).sort = .value with
      | some (_, value) => text fuel value
      | none => fail (.wrongKind "scalar" node.form.name) node.start

/-- A value, or its fault. -/
def ofExcept {α : Type} (x : Except ValueFault α) : Make α := liftM (x.mapError Error.value)

/-- The bytes of a text in base sixty-four. -/
def binary (text : String) (place : Mark) : Make Document :=
  match Text.Encoding.ascii.fault? text.toList with
  | some fault => fail (.notAscii fault) place
  | none =>
    match Text.Base64.decode text.toList with
    | .ok bytes => return .bytes bytes
    | .error fault => fail (.notBytes fault) place

/-- The value of a node of a sort of scalars; `none` for other sorts. -/
def scalar? (n : Nat) : Make (Option Document) := do
  let node ← node n
  let text := text maxPassing n
  match node.sort with
  | .null => let _ ← text; return some .null
  | .bool => return some (.bool (← ofExcept (Plain.boolValue (← text))))
  | .int => return some (.int (← ofExcept (Plain.intValue (← text))))
  | .float => return some (.float (← ofExcept (Plain.floatValue (← text))))
  | .timestamp =>
    let found ← text
    match node.form with
    | .scalar _ => return some (← ofExcept (Plain.dateValue found))
    | _ => throw (.value .notText)
  | .binary => return some (← binary (← text) node.start)
  | .text => return some (.text (← text))
  | _ => return none

/-- The empty collection of a sort of collections. -/
def emptyOf? : ValueSort → Option Object
  | .sequence => some (.list [])
  | .mapping => some (.map [])
  | .set => some (.keys [])
  | .orderedMap => some (.pairs [])
  | .pairs => some (.pairs [])
  | _ => none

/-- The object of a node, which is made if it is not there yet. -/
def object (n : Nat) : Make Object := do
  if let some object := ((← get).objects[n]?).join then return object
  let node ← node n
  match emptyOf? node.sort with
  | some object =>
    setObject n object
    modify fun s => { s with waiting := n :: s.waiting }
    return object
  | none =>
    match ← scalar? n with
    | some value =>
      setObject n (.scalar value)
      return .scalar value
    | none => fail (.unknownTag node.sort.tag) node.start

/-! ## Mappings -/

/-- The entries of a node that is a mapping. -/
def entries (n : Nat) : Make (List (Nat × Nat)) := do
  match (← node n).form with
  | .mapping entries => return entries
  | _ => return []

/-- Takes the sign for a value as a text where it is a key of a node. -/
def retag (n : Nat) : Make Unit := do
  let keys := (← entries n).map Prod.fst
  modify fun s => { s with
    nodes := keys.foldl (fun g key =>
      g.modify key fun k => if k.sort = .value then { k with sort := .text } else k) s.nodes }

/-- The first entry of a node that merges something into it: its place and what it merges. -/
def merging? (n : Nat) : Make (Option (Nat × Nat)) := do
  let own ← entries n
  let g := (← get).nodes
  let place? := own.findIdx? fun e => (g.node e.1).sort = .merge
  return place?.bind fun i => own[i]?.map fun e => (i, e.2)

/-- Puts what a mapping merges before its own entries, after `merged`, which was merged already.  Every
call without an end takes an entry that merges from the graph, so that their number is fuel enough. -/
def flatten : (fuel : Nat) → (n : Nat) → (merged : List (Nat × Nat)) → Make Unit
  | 0, _, _ => return
  | fuel + 1, n, merged => do
    match ← merging? n with
    | none =>
      retag n
      setForm n (.mapping (merged ++ (← entries n)))
    | some (i, source) =>
      setForm n (.mapping ((← entries n).eraseIdx i))
      let start := (← node n).start
      let found ← node source
      match found.form with
      | .mapping _ =>
        flatten fuel source []
        flatten fuel n (merged ++ (← entries source))
      | .sequence items =>
        let parts ← items.mapM fun item => do
          let part ← node item
          match part.form with
          | .mapping _ =>
            flatten fuel item []
            entries item
          | _ => failIn .mapping start (.notMergeable part.form.name) part.start
        flatten fuel n (merged ++ parts.reverse.flatten)
      | .scalar _ => failIn .mapping start (.notMergeables found.form.name) found.start

/-- A key of a mapping.  What is no number is equal to itself alone, and so has an identity. -/
structure Key where
  value : Document
  identity : Nat

/-- The identity of the value of a node: the word for what is no number always means the same one. -/
def identity (n : Nat) : Make Nat := do
  let node ← node n
  match node.sort, node.form with
  | .float, .scalar text => return if Plain.isNanWord text then 0 else n + 1
  | _, _ => return n + 1

/-- Whether two keys are the same. -/
def Key.isSame (k l : Key) : Bool := k.identity == l.identity || k.value.sameKey l.value

/-- Sets the value of a key: in place if the key is there, else at the end. -/
def insert (key : Key) (value : Nat) : List (Key × Nat) → List (Key × Nat)
  | [] => [(key, value)]
  | (k, v) :: rest => if k.isSame key then (k, value) :: rest else (k, v) :: insert key value rest

/-- The key that a node stands for in a mapping that starts at `since`. -/
def key (since : Mark) (n : Nat) : Make Key := do
  match ← object n with
  | .scalar value => return ⟨value, ← identity n⟩
  | _ => failIn .mapping since .unhashable (← node n).start

/-- The entries of a mapping with what it merges.  `fuel` bounds the number of merging entries. -/
def mapping (fuel n : Nat) : Make (List (Document × Nat)) := do
  let found ← node n
  match found.form with
  | .mapping _ =>
    flatten fuel n []
    let put (es : List (Key × Nat)) (e : Nat × Nat) : Make (List (Key × Nat)) := do
      let key ← key found.start e.1
      let _ ← object e.2
      return insert key e.2 es
    return ((← (← entries n).foldlM put []).map fun e => (e.1.value, e.2))
  | form => fail (.wrongKind "mapping" form.name) found.start

/-- The entries of a sequence of mappings of one entry each. -/
def pairs (context : Context) (n : Nat) : Make (List (Nat × Nat)) := do
  let found ← node n
  match found.form with
  | .sequence items => items.mapM fun item => do
    let part ← node item
    match part.form with
    | .mapping [(key, value)] =>
      let _ ← object key
      let _ ← object value
      return (key, value)
    | .mapping entries => failIn context found.start (.notOneEntry entries.length) part.start
    | form => failIn context found.start (.notEntry form.name) part.start
  | form => failIn context found.start (.notItems form.name) found.start

/-! ## Filling -/

/-- Fills the collection of a node. -/
def fill (fuel n : Nat) : Make Unit := do
  let found ← node n
  match found.sort with
  | .sequence =>
    match found.form with
    | .sequence items =>
      for item in items do
        let _ ← object item
      setObject n (.list items)
    | form => fail (.wrongKind "sequence" form.name) found.start
  | .mapping => setObject n (.map (← mapping fuel n))
  | .set => setObject n (.keys (Document.Slots.order ((← mapping fuel n).map Prod.fst)))
  | .orderedMap => setObject n (.pairs (← pairs .orderedMap n))
  | .pairs => setObject n (.pairs (← pairs .pairs n))
  | _ => return

/-- Fills what waits, and what waits after that.  There are no more turns than nodes. -/
def fillAll (merges : Nat) : (fuel : Nat) → Make Unit
  | 0 => return
  | fuel + 1 => do
    let waiting := (← get).waiting.reverse
    if waiting.isEmpty then return
    modify fun s => { s with waiting := [] }
    waiting.forM (fill merges)
    fillAll merges fuel

end Make

/-- The number of entries of a form. -/
def Form.entryCount : Form → Nat
  | mapping entries => entries.length
  | _ => 0

/-- The objects of a graph that the node `root` leads to. -/
def Graph.objects (g : Graph) (root : Nat) : Except Error (Array (Option Object)) := do
  let merges := g.foldl (fun n node => n + node.form.entryCount) 1
  let make : Make Unit := do
    let _ ← Make.object root
    Make.fillAll merges (g.size + 1)
  let (_, s) ← make.run { nodes := g, objects := Array.replicate g.size none }
  return s.objects

end BlockSketch.Yaml
