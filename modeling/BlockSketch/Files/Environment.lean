import BlockSketch.Files.Tree

/-!
# Environment

Named variables and the home directories of accounts, and what a tilde at the front of a path and
dollar names inside a text stand for.
-/

namespace BlockSketch

/-- What a program finds around it besides files. -/
structure Environment where
  bindings : List (String × String)
  /-- Home directories of named accounts. -/
  accounts : List (String × String)

namespace Environment

def get? (e : Environment) (name : String) : Option String := e.bindings.lookup name

/-- The environment with a variable set. -/
def set (e : Environment) (name value : String) : Environment :=
  { e with bindings := (name, value) :: e.bindings.filter fun v => v.1 != name }

/-- The environment with a variable set to a text that the system may refuse. -/
def assign (e : Environment) (name value : String) : Except FileFault Environment := do
  checkSystemText value
  return e.set name value

/-- The environment without a variable. -/
def unset (e : Environment) (name : String) : Environment :=
  { e with bindings := e.bindings.filter fun v => v.1 != name }

/-- The home directory of an account; the empty name is one's own.  A directory whose name starts with a
tilde itself does not count. -/
def home (e : Environment) (account : String) : Except FileFault String := do
  checkSystemText account
  let found := if account.isEmpty then e.get? "HOME" else e.accounts.lookup account
  let some directory := found | throw .noHome
  let trimmed := (directory.toList.reverse.dropWhile (· == '/')).reverse
  if trimmed.head? == some '~' then throw .noHome
  return if trimmed.isEmpty then "/" else String.ofList trimmed

/-- The path with a leading tilde name replaced by the home directory it stands for. -/
def expandHome (e : Environment) (p : Path) : Except FileFault Path :=
  match p.isAbsolute, p.names with
  | false, name :: rest =>
    match name.toList with
    | '~' :: account => do
      let base := Path.ofText (← e.home (String.ofList account))
      return { base with names := base.names ++ rest }
    | _ => .ok p
  | _, _ => .ok p

/-- One's own home directory. -/
def ownHome (e : Environment) : Except FileFault Path := (e.home "").map Path.ofText

def isNameChar (c : Char) : Bool := c.isAlphanum || c == '_'

/-- Replaces `$NAME` and `$\x7bNAME\x7d` by the variables that are set, leaving other names as they
are. -/
def expandNames (e : Environment) : (fuel : Nat) → List Char → List Char
  | 0, s => s
  | _, [] => []
  | fuel + 1, '$' :: '\x7b' :: s =>
    let name := s.takeWhile (· != '\x7d')
    match s.dropWhile (· != '\x7d') with
    | _ :: rest =>
      match e.get? (String.ofList name) with
      | some value => value.toList ++ e.expandNames fuel rest
      | none => '$' :: '\x7b' :: name ++ '\x7d' :: e.expandNames fuel rest
    | [] => '$' :: e.expandNames fuel ('\x7b' :: s)
  | fuel + 1, '$' :: s =>
    match s.takeWhile isNameChar with
    | [] => '$' :: e.expandNames fuel s
    | name =>
      let rest := s.dropWhile isNameChar
      match e.get? (String.ofList name) with
      | some value => value.toList ++ e.expandNames fuel rest
      | none => '$' :: name ++ e.expandNames fuel rest
  | fuel + 1, c :: s => c :: e.expandNames fuel s

/-- A text with its dollar names replaced. -/
def expandVariables (e : Environment) (s : String) : String :=
  String.ofList (e.expandNames (s.length + 1) s.toList)

end Environment

end BlockSketch
