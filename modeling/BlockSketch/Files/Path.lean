/-!
# Paths

File paths as a root and a list of names.  Empty names and single dots do not count; two dots stay as
they are.
-/

namespace BlockSketch

/-- A path: relative, from the root, or from the root spelled with two slashes. -/
structure Path where
  slashes : Nat
  names : List String
  deriving DecidableEq, Repr, Inhabited

namespace Path

/-- The names between slashes that count. -/
def namesOf (s : String) : List String :=
  ((s.toList.splitOn '/').map String.ofList).filter fun n => n != "" && n != "."

/-- Reads a path. -/
def ofText (s : String) : Path where
  slashes :=
    match (s.toList.takeWhile (· == '/')).length with
    | 0 => 0
    | 2 => 2
    | _ => 1
  names := namesOf s

/-- The text of a path; the empty path is a dot. -/
def text (p : Path) : String :=
  if p.slashes = 0 && p.names.isEmpty then "."
  else String.ofList (List.replicate p.slashes '/') ++ "/".intercalate p.names

def isAbsolute (p : Path) : Bool := p.slashes != 0

/-- The path `q` seen from `p`. -/
def join (p q : Path) : Path := if q.isAbsolute then q else { p with names := p.names ++ q.names }

/-- The path of a name below `p`. -/
def child (p : Path) (name : String) : Path := p.join (ofText name)

/-- The path without its last name; a path without names is its own parent. -/
def parent (p : Path) : Path := { p with names := p.names.dropLast }

/-- Follows names, two dots leading back. -/
def collapse (base : List String) : List String → List String
  | [] => base
  | n :: ns => collapse (if n = ".." then base.dropLast else base ++ [n]) ns

/-- The absolute path without dots, seen from a directory given by its names. -/
def resolve (cwd : List String) (p : Path) : Path where
  slashes := 1
  names := collapse (if p.isAbsolute then [] else cwd) p.names

/-- The places that following names from a place passes through, the last one included. -/
def placesFrom (place : List String) : List String → List (List String)
  | [] => [place]
  | n :: ns => place :: placesFrom (if n = ".." then place.dropLast else place ++ [n]) ns

/-- The places between the root and the end of a path, seen from a directory. -/
def places (cwd : List String) (p : Path) : List (List String) :=
  placesFrom [] (if p.isAbsolute then p.names else cwd ++ p.names)

@[simp]
theorem names_parent (p : Path) : p.parent.names = p.names.dropLast := rfl

end Path

end BlockSketch
