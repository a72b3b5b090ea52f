import BlockSketch.Yaml.Object

/-!
# Trees of objects

The objects of a graph as a document.  An object that stands in several places is unfolded at each of
them; one that stands inside itself is cut off where it is met again.
-/

namespace BlockSketch.Yaml

/-- Documents of nodes that are unfolded already and hold nothing that is cut off. -/
abbrev Unfolded := Array (Option Document)

/-- A document, and whether something in it is cut off. -/
structure Branch where
  document : Document
  cut : Bool := false

namespace Branch

/-- What an object is shown as inside itself. -/
def again : Object → Document
  | .map _ => .again true
  | _ => .again false

/-- A document made of the documents of branches. -/
def join (branches : List Branch) (f : List Document → Document) : Branch :=
  ⟨f (branches.map document), branches.any cut⟩

/-- Remembers a branch of a node if nothing in it is cut off. -/
def remember (n : Nat) (b : Branch) : StateM Unfolded Branch := do
  if !b.cut then modify (·.set! n (some b.document))
  return b

/-- The branch of a node inside the nodes `around`.  The topmost levels, `free` of them, are never cut
off. -/
def unfold (objects : Array (Option Object)) :
    (fuel free : Nat) → (around : List Nat) → (n : Nat) → StateM Unfolded Branch
  | 0, _, _, _ => return ⟨.null, true⟩
  | fuel + 1, free, around, n => do
    let some object := (objects[n]?).join | return ⟨.null, false⟩
    if around.contains n then return ⟨again object, true⟩
    if let some d := ((← get)[n]?).join then return ⟨d, false⟩
    let inside := unfold objects fuel (free - 1) (if free = 0 then n :: around else around)
    match object with
    | .scalar value => return ⟨value, false⟩
    | .keys members => return ⟨.keys members, false⟩
    | .list items => remember n (join (← items.mapM inside) .list)
    | .map entries =>
      let values ← entries.mapM fun e => inside e.2
      remember n (join values fun ds => .map ((entries.map Prod.fst).zip ds))
    | .pairs entries =>
      let rows ← entries.mapM fun e => do return join [← inside e.1, ← inside e.2] .row
      remember n (join rows .list)

end Branch

/-- The document of the node `root`.  Values are cut off from the third level on; the levels above hold
the sections of a document and the fields of a section. -/
def treeOf (objects : Array (Option Object)) (root : Nat) : Document :=
  let unfolded := Branch.unfold objects (objects.size + 4) 2 [] root
  (unfolded.run (Array.replicate objects.size none)).1.document

end BlockSketch.Yaml
