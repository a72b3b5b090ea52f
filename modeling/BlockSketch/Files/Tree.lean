import BlockSketch.Files.Path
import BlockSketch.Text.Quoted
import BlockSketch.Text.Utf8

/-!
# File trees

Files and directories as a value.  Every access follows the path from the root or from the working
directory and fails as the path fails.
-/

namespace BlockSketch

/-- What stands at a place of a tree: a file, or a directory with what stands in it, by name. -/
inductive Entry where
  | file (bytes : List UInt8)
  | directory (entries : List (String × Entry))

namespace Entry

/-- The directory in which nothing stands. -/
def empty : Entry := directory []

/-- What stands in an entry; nothing does in a file. -/
def children : Entry → List (String × Entry)
  | file _ => []
  | directory entries => entries

/-- The entries with another one under a name. -/
def setChild (name : String) (e : Entry) : List (String × Entry) → List (String × Entry)
  | [] => [(name, e)]
  | (other, f) :: rest => if name == other then (name, e) :: rest else (other, f) :: setChild name e rest

/-- What stands at the place that names lead to. -/
def at? (e : Entry) : List String → Option Entry
  | [] => some e
  | n :: ns => (e.children.lookup n).bind fun f => f.at? ns

/-- The entry with another one at a place.  What is on the way to it becomes a directory. -/
def put (e : Entry) (new : Entry) : List String → Entry
  | [] => new
  | n :: ns => directory (setChild n (((e.children.lookup n).getD empty).put new ns) e.children)

theorem lookup_setChild (name : String) (e : Entry) :
    ∀ entries, (setChild name e entries).lookup name = some e
  | [] => by simp [setChild]
  | (other, f) :: rest => by
    unfold setChild
    by_cases h : (name == other) = true
    · simp [h]
    · simp [h, List.lookup_cons, lookup_setChild name e rest]

/-- What was put at a place stands there. -/
theorem at?_put (new : Entry) (e : Entry) (place : List String) :
    (e.put new place).at? place = some new := by
  induction place generalizing e with
  | nil => rfl
  | cons n ns ih => simp [put, at?, children, lookup_setChild, ih]

mutual

/-- The places of an entry that `place` leads to, each with the bytes of its file, directories before what
stands in them. -/
def places (place : List String) : Entry → List (List String × Option (List UInt8))
  | file bytes => [(place, some bytes)]
  | directory entries => (place, none) :: childPlaces place entries

def childPlaces (place : List String) :
    List (String × Entry) → List (List String × Option (List UInt8))
  | [] => []
  | (name, e) :: rest => places (place ++ [name]) e ++ childPlaces place rest

end

end Entry

/-- Why a file operation fails. -/
inductive FileProblem where
  | missing
  | exists
  | notDirectory
  | isDirectory
  | nameTooLong
  deriving DecidableEq, Repr

namespace FileProblem

/-- The number of the problem. -/
def code : FileProblem → Nat
  | missing => 2
  | «exists» => 17
  | notDirectory => 20
  | isDirectory => 21
  | nameTooLong => 36

def text : FileProblem → String
  | missing => "No such file or directory"
  | «exists» => "File exists"
  | notDirectory => "Not a directory"
  | isDirectory => "Is a directory"
  | nameTooLong => "File name too long"

end FileProblem

/-- A failed file operation.  Texts with null characters and with characters that no name can hold, be
they paths or values of variables, never reach the system; some characters cannot be written to a file;
only so many directories can be made at once; and a path may start in a home directory that is not known. -/
inductive FileFault where
  | system (problem : FileProblem) (path : String)
  | nullCharacter
  | unencodable (fault : Text.EncodingFault)
  | tooDeep
  | noHome
  deriving DecidableEq, Repr

namespace FileFault

def message : FileFault → String
  | system problem path => s!"[Errno {problem.code}] {problem.text}: {Text.quoted path}"
  | nullCharacter => "embedded null byte"
  | unencodable fault => fault.message
  | tooDeep => "maximum recursion depth exceeded while calling a Python object"
  | noHome => "Could not determine home directory."

/-- Whether the system refused the operation. -/
def isSystem : FileFault → Bool
  | system _ _ => true
  | _ => false

end FileFault

/-- Refuses a text that cannot be handed to the system. -/
def checkSystemText (s : String) : Except FileFault Unit :=
  match Text.Encoding.fileName.fault? s.toList with
  | some fault => .error (.unencodable fault)
  | none => if s.toList.contains '\x00' then .error .nullCharacter else .ok ()

/-- Files and directories below the root, and the names that lead from it to the working directory. -/
structure FileTree where
  cwd : List String
  root : Entry := .empty

namespace FileTree

/-- The tree with something else at a place. -/
def put (t : FileTree) (place : List String) (e : Entry) : FileTree :=
  { t with root := t.root.put e place }

/-- The longest name of a file, in bytes. -/
def maxNameBytes : Nat := 255

/-- The longest path, in bytes. -/
def maxPathBytes : Nat := 4095

/-- The most directories that are made at once. -/
def maxDirectories : Nat := 985

/-- A place that a path leads to: the names from the root, and what stands there. -/
structure Spot where
  place : List String
  entry : Option Entry

/-- Follows names.  The trail holds the names so far with what stands there, the last one first.  Every
place that is left must be a directory; the last one need not exist. -/
def follow (root : Entry) (trail : List (String × Option Entry)) :
    List String → Except FileProblem Spot
  | [] => .ok ⟨(trail.map Prod.fst).reverse, (trail.head?.map Prod.snd).getD (some root)⟩
  | n :: ns =>
    match (trail.head?.map Prod.snd).getD (some root) with
    | none => .error .missing
    | some (.file _) => .error .notDirectory
    | some (.directory entries) =>
      if n = ".." then follow root trail.tail ns
      else if maxNameBytes < n.utf8ByteSize then .error .nameTooLong
      else follow root ((n, entries.lookup n) :: trail) ns

/-- The place that a path leads to. -/
def locate (t : FileTree) (p : Path) : Except FileFault Spot := do
  checkSystemText p.text
  if maxPathBytes < p.text.utf8ByteSize then throw (.system .nameTooLong p.text)
  (follow t.root [] (if p.isAbsolute then p.names else t.cwd ++ p.names)).mapError (.system · p.text)

/-- What a path leads to. -/
def entry (t : FileTree) (p : Path) : Except FileFault Entry := do
  match (← t.locate p).entry with
  | some e => return e
  | none => throw (.system .missing p.text)

/-- Whether a path leads anywhere.  Only a name or a path that is too long is a fault. -/
def exists? (t : FileTree) (p : Path) : Except FileFault Bool :=
  match t.entry p with
  | .ok _ => .ok true
  | .error (.system .nameTooLong path) => .error (.system .nameTooLong path)
  | .error _ => .ok false

/-- Whether a path leads to a directory. -/
def isDirectory (t : FileTree) (p : Path) : Bool :=
  match t.entry p with
  | .ok (.directory _) => true
  | _ => false

/-- The bytes of a file. -/
def read (t : FileTree) (p : Path) : Except FileFault (List UInt8) := do
  match ← t.entry p with
  | .file bytes => return bytes
  | .directory _ => throw (.system .isDirectory p.text)

/-- Makes a directory, whose parent must exist. -/
def makeDirectory (t : FileTree) (p : Path) : Except FileFault FileTree := do
  let spot ← t.locate p
  match spot.entry with
  | some _ => throw (.system .exists p.text)
  | none => return t.put spot.place .empty

/-- Makes a directory after those it stands in, no more than `count` in all.  A directory that is there
already will do. -/
def makeDirectories (t : FileTree) (p : Path) : (count : Nat) → Except FileFault FileTree
  | 0 => .error .tooDeep
  | count + 1 =>
    match t.makeDirectory p with
    | .ok t => .ok t
    | .error (.system .missing path) =>
      if p.parent = p then .error (.system .missing path)
      else do
        let t ← t.makeDirectories p.parent count
        match t.makeDirectory p with
        | .ok t => return t
        | .error fault => if t.isDirectory p then return t else throw fault
    | .error fault => if t.isDirectory p then .ok t else .error fault

/-- Makes a directory and all those that lead to it. -/
def ensureDirectory (t : FileTree) (p : Path) : Except FileFault FileTree :=
  t.makeDirectories p maxDirectories

/-- Writes bytes to a file, whose directory must exist. -/
def write (t : FileTree) (p : Path) (bytes : List UInt8) : Except FileFault FileTree := do
  let spot ← t.locate p
  match spot.entry with
  | some (.directory _) => throw (.system .isDirectory p.text)
  | _ => return t.put spot.place (.file bytes)

/-- Writes a text to a file, whose directory must exist. -/
def writeText (t : FileTree) (p : Path) (text : String) : Except FileFault FileTree := do
  let t ← t.write p []
  t.write p (← (Utf8.encodeStrictly text.toList).mapError .unencodable)

/-- `makeDirectories` together with the tree that it leaves.  When it fails, the directories that were
made before stay. -/
def attemptDirectories (t : FileTree) (p : Path) : (count : Nat) → Except FileFault Unit × FileTree
  | 0 => (.error .tooDeep, t)
  | count + 1 =>
    match t.makeDirectory p with
    | .ok t => (.ok (), t)
    | .error (.system .missing path) =>
      if p.parent = p then (.error (.system .missing path), t)
      else match t.attemptDirectories p.parent count with
        | (.error fault, t) => (.error fault, t)
        | (.ok (), t) =>
          match t.makeDirectory p with
          | .ok t => (.ok (), t)
          | .error fault => (if t.isDirectory p then .ok () else .error fault, t)
    | .error fault => (if t.isDirectory p then .ok () else .error fault, t)

/-- `writeText` together with the tree that it leaves.  The file is emptied before the text is
encoded. -/
def attemptText (t : FileTree) (p : Path) (text : String) : Except FileFault Unit × FileTree :=
  match t.write p [] with
  | .error fault => (.error fault, t)
  | .ok t =>
    match Utf8.encodeStrictly text.toList with
    | .error fault => (.error (.unencodable fault), t)
    | .ok bytes =>
      match t.write p bytes with
      | .error fault => (.error fault, t)
      | .ok t => (.ok (), t)

/-- Adds to the end of a file, which is made if it is not there. -/
def append (t : FileTree) (p : Path) (bytes : List UInt8) : Except FileFault FileTree := do
  match (← t.locate p).entry with
  | some (.file old) => t.write p (old ++ bytes)
  | _ => t.write p bytes

/-- The files that stand directly in a directory, by name. -/
def filesIn (t : FileTree) (p : Path) : Except FileFault (List (String × List UInt8)) := do
  return (← t.entry p).children.filterMap fun (name, e) =>
    match e with
    | .file bytes => some (name, bytes)
    | .directory _ => none

/-- All places of a tree, each with the bytes of its file. -/
def places (t : FileTree) : List (List String × Option (List UInt8)) := t.root.places []

end FileTree

end BlockSketch
