import BlockSketch.CommandLine.Run

/-!
# The program

Looks at the files that a run can touch, runs, and writes back what has changed.
-/

namespace BlockSketch.Outer

/-- The text of a place. -/
def placeText (place : List String) : String := "/" ++ "/".intercalate place

/-- What stands at a place on the disk. -/
def look (place : List String) : IO (Option Entry) := do
  try
    let path ← IO.FS.realPath (placeText place)
    if ← path.isDir then return some .empty
    return some (.file (← IO.FS.readBinFile path).toList)
  catch _ => return none

/-- The tree of the places that paths pass through. -/
def snapshot (cwd : List String) (paths : List Path) : IO FileTree := do
  let mut tree : FileTree := { cwd := cwd }
  for place in ((paths.flatMap (Path.places cwd)).eraseDups).filter (!·.isEmpty) do
    if let some entry ← look place then
      tree := tree.put place entry
  return tree

/-- Writes what differs between two trees. -/
def store (before after : FileTree) : IO Unit := do
  let old := before.places
  for (place, content) in after.places do
    if old.lookup place ≠ some content then
      match content with
      | none => IO.FS.createDir (placeText place)
      | some bytes => IO.FS.writeBinFile (placeText place) ⟨bytes.toArray⟩

/-- The variables that a run looks at. -/
def environment : IO Environment := do
  let mut bindings := []
  for name in ["HOME", Settings.fileVariable] do
    if let some value ← IO.getEnv name then
      bindings := (name, value) :: bindings
  return ⟨bindings, []⟩

/-- The time of day, read off a file that is made for it. -/
def clock : IO Instant := do
  let (_, file) ← IO.FS.createTempFile
  let modified := (← file.metadata).modified
  IO.FS.removeFile file
  return { Instant.ofEpochSeconds modified.sec with micro := modified.nsec.toNat / 1000 }

/-- The directory of the journal below a home directory. -/
def journals (home : Path) : Path := home.join CommandLine.journalDirectory

/-- The paths that arguments and environment lead to, before settings are known. -/
def mentioned (env : Environment) (arguments : List String) : List Path :=
  let texts := arguments ++ arguments.filterMap fun a => (Arguments.splitEquals a).map Prod.snd
  let named := texts.map Path.ofText ++ ((env.get? Settings.fileVariable).map Path.ofText).toList
  let own := env.ownHome.toOption.toList.flatMap fun home =>
    [home.join Settings.homeFile, (journals home).child CommandLine.journalName]
  named.filterMap (fun p => (env.expandHome p).toOption) ++ own ++
    [Settings.installation.join Settings.sharedFile]

/-- The directory of exports that settings choose. -/
def chosenDirectory (env : Environment) (files : FileTree) (arguments : List String) : List Path :=
  match CommandLine.Request.ofArguments arguments with
  | .error _ => []
  | .ok request =>
    match CommandLine.withSettingsFile env request.settings with
    | .error _ => []
    | .ok env =>
      match Settings.load env files with
      | .ok s => [s.exportDirectory]
      | .error _ => []

end BlockSketch.Outer

open BlockSketch BlockSketch.Outer in
def main (arguments : List String) : IO UInt32 := do
  let env ← environment
  let home ← match env.ownHome with
    | .ok home => pure home
    | .error fault =>
      (← IO.getStderr).putStrLn fault.message
      return CommandLine.statusFailure.toUInt32
  let cwd := Path.namesOf (← IO.currentDir).toString
  let paths := Path.resolve cwd ⟨0, []⟩ :: mentioned env arguments
  let early ← snapshot cwd paths
  let files ← snapshot cwd (paths ++ chosenDirectory env early arguments)
  match CommandLine.run arguments ⟨env, files, ← clock, journals home⟩ with
  | .ok o =>
    store files o.files
    (← IO.getStdout).putStr o.output
    (← IO.getStderr).putStr o.errors
    return o.status.toUInt32
  | .error failure =>
    (← IO.getStderr).putStrLn failure.message
    return CommandLine.statusFailure.toUInt32
