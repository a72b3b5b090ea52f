import BlockSketch.Arguments.Grammar

/-!
# Reading arguments

Every text is first told apart: a switch, by its name or by the start of it, a plain text, or the
separator, after which all texts are plain.  Negative numbers and texts with a space in them are plain.
Then plain texts fill the slots in order, and what nothing takes is left over.
-/

namespace BlockSketch.Arguments

/-- A switch in use: the name it is called by, and a value that is part of the same text. -/
structure Use where
  switch : Switch
  name : String
  value : Option String := none

/-- A text of the command line. -/
inductive Token where
  /-- A text that starts like a switch; no switch may go by it. -/
  | switch (use : Option Use) (text : String)
  | plain (text : String)
  | separator

/-- The text that separates switches from plain texts. -/
def separatorText : String := "--"

def Token.text : Token → String
  | switch _ text => text
  | plain text => text
  | separator => separatorText

/-- The parts before and after the first equals sign. -/
def splitEquals (s : String) : Option (String × String) :=
  let before := s.toList.takeWhile (· != '=')
  match s.toList.dropWhile (· != '=') with
  | [] => none
  | _ :: after => some (String.ofList before, String.ofList after)

/-- Whether a text is a negative number with an optional fraction. -/
def isNegativeNumber (s : String) : Bool :=
  match s.toList with
  | '-' :: cs =>
    let cs := if cs.getLast? = some '\n' then cs.dropLast else cs
    let fraction := cs.dropWhile Text.isDigit
    match fraction with
    | [] => !cs.isEmpty
    | c :: ds => c == '.' && !ds.isEmpty && ds.all Text.isDigit
  | _ => false

/-- The uses that the start of a switch's name stands for. -/
def abbreviations (g : Grammar) (text : String) : List Use :=
  match text.toList with
  | '-' :: '-' :: _ =>
    let (start, value) := match splitEquals text with
      | some (start, value) => (start, some value)
      | none => (text, none)
    (g.named.filter fun (name, _) => start.toList.isPrefixOf name.toList).map fun (name, s) =>
      ⟨s, name, value⟩
  | _ =>
    let short := String.ofList (text.toList.take 2)
    let rest := String.ofList (text.toList.drop 2)
    g.named.filterMap fun (name, s) =>
      if name = short then some ⟨s, name, some rest⟩
      else if text.toList.isPrefixOf name.toList then some ⟨s, name, none⟩
      else none

/-- The use of a switch by its full name, with a value after an equals sign or without one. -/
def exactUse? (g : Grammar) (text : String) : Option Use :=
  match g.named.lookup text with
  | some s => some ⟨s, text, none⟩
  | none => do
    let (name, value) ← splitEquals text
    let s ← g.named.lookup name
    return ⟨s, name, some value⟩

/-- What a text is. -/
def tokenOf (g : Grammar) (text : String) : Except Fault Token :=
  if text.toList.head? ≠ some '-' || text.length = 1 then .ok (.plain text)
  else
    match exactUse? g text with
    | some use => .ok (.switch (some use) text)
    | none =>
      match abbreviations g text with
      | [use] => .ok (.switch (some use) text)
      | first :: second :: more =>
        .error (.ambiguous text ((first :: second :: more).map Use.name))
      | [] =>
        if isNegativeNumber text || text.contains ' ' then .ok (.plain text)
        else .ok (.switch none text)

/-- What the texts of a command line are. -/
def tokens (g : Grammar) : List String → Except Fault (List Token)
  | [] => .ok []
  | text :: rest =>
    if text = separatorText then .ok (.separator :: rest.map .plain)
    else do
      let token ← tokenOf g text
      return token :: (← tokens g rest)

/-- What the arguments say. -/
structure Reading where
  flags : List String := []
  /-- The values of switches, the last one given first. -/
  values : List (String × String) := []
  slots : List (String × String) := []
  command : Option (String × List String) := none
  leftover : List String := []

namespace Reading

def hasFlag (r : Reading) (key : String) : Bool := r.flags.contains key

def value? (r : Reading) (key : String) : Option String := r.values.lookup key

/-- The text of a slot; the empty text if it has none. -/
def slot (r : Reading) (name : String) : String := (r.slots.lookup name).getD ""

def leave (r : Reading) (texts : List String) : Reading := { r with leftover := r.leftover ++ texts }

/-- Whether an item was given. -/
def has (r : Reading) : Item → Bool
  | .switch s => r.hasFlag s.key || (r.value? s.key).isSome
  | .slot (.single name) => (r.slots.lookup name).isSome
  | .slot (.command _ _) => r.command.isSome

end Reading

/-- Takes a value for a switch, if it has the right form. -/
def takeValue (r : Reading) (s : Switch) (form : Form) (value : String) : Except Fault Reading :=
  if form.integer && !(Numeral.read value).isOk then .error (.badInteger s.title value)
  else if !form.choices.isEmpty && !form.choices.contains value then
    .error (.badChoice s.title value form.choices)
  else .ok { r with values := (s.key, value) :: r.values }

/-- Checks that letters name short switches without values.  The switch in front of the first letter that
does not is at fault. -/
def checkLetters (g : Grammar) (s : Switch) : List Char → Except Fault Unit
  | [] => .ok ()
  | c :: letters =>
    match g.named.lookup (String.ofList ['-', c]) with
    | some next => checkLetters g next letters
    | none => .error (.valueIgnored s.title (String.ofList (c :: letters)))

/-- Checks that a switch without a value is given none.  Further letters after a short switch are not a
value but more short switches. -/
def checkVain (g : Grammar) (use : Use) : Except Fault Unit :=
  match use.value with
  | none => .ok ()
  | some value =>
    if use.name.length = 2 && !value.isEmpty then checkLetters g use.switch value.toList
    else .error (.valueIgnored use.switch.title value)

/-- Follows the tokens, given the slots that are still to fill. -/
def follow (g : Grammar) (r : Reading) (slots : List Slot) : List Token → Except Stop Reading
  | [] => .ok r
  | .switch none text :: rest => follow g (r.leave [text]) slots rest
  | .switch (some use) _ :: rest =>
    let fault {α : Type} (f : Fault) : Except Stop α := .error (.fault g.program f)
    match use.switch.role, use.value, rest with
    | .value form, some value, rest => do
      let r ← (takeValue r use.switch form value).mapError (.fault g.program)
      follow g r slots rest
    | .value form, none, .plain value :: rest => do
      let r ← (takeValue r use.switch form value).mapError (.fault g.program)
      follow g r slots rest
    | .value _, none, _ => fault (.valueMissing use.switch.title)
    | role, _, rest =>
      match checkVain g use, role with
      | .error f, _ => fault f
      | .ok _, .help => .error .help
      | .ok _, .version => .error .version
      | .ok _, _ => follow g { r with flags := use.switch.key :: r.flags } slots rest
  | .separator :: rest =>
    match slots, rest with
    | .command name choices :: _, .plain _ :: _ =>
      .error (.fault g.program (.badChoice name separatorText choices))
    | .single name :: slots, .plain text :: rest =>
      follow g { r with slots := (name, text) :: r.slots } slots rest
    | slots, rest => follow g (r.leave [separatorText]) slots rest
  | .plain text :: rest =>
    match slots, rest with
    | .command name choices :: _, rest =>
      if choices.contains text then .ok { r with command := some (text, rest.map Token.text) }
      else .error (.fault g.program (.badChoice name text choices))
    | .single name :: slots, .separator :: rest =>
      follow g { r with slots := (name, text) :: r.slots } slots rest
    | .single name :: slots, rest =>
      follow g { r with slots := (name, text) :: r.slots } slots rest
    | [], rest => follow g (r.leave [text]) [] rest

/-- The titles of the items that must be given and are not. -/
def missingTitles (g : Grammar) (r : Reading) : List String :=
  g.items.filterMap fun e =>
    match e with
    | .switch s => if s.required && !r.has e then some s.title else none
    | .slot s => if r.has e then none else some s.name

/-- Reads arguments, leaving over what nothing takes. -/
def read (g : Grammar) (texts : List String) : Except Stop Reading := do
  let ts ← (tokens g texts).mapError (.fault g.program)
  let r ← follow g {} g.slots ts
  match missingTitles g r with
  | [] => return r
  | titles => throw (.fault g.program (.missing titles))

/-- Nothing may be left over. -/
def refuseLeftover (g : Grammar) : List String → Except Stop Unit
  | [] => .ok ()
  | texts => .error (.fault g.program (.unrecognized texts))

end BlockSketch.Arguments
