import BlockSketch.Document.Basic
import BlockSketch.Number.DoubleText
import BlockSketch.Text.Case
import BlockSketch.Yaml.Scalar

/-!
# What a text stands for

A plain scalar stands for the value that its form suggests: a truth value, a number in one of several
bases, a date, or nothing; every other text stands for itself.  A tag can name the sort of value too,
and then the text may not fit it.
-/

namespace BlockSketch.Yaml

/-- The sorts of values. -/
inductive ValueSort where
  | null
  | bool
  | int
  | float
  | timestamp
  | binary
  | text
  | merge
  | value
  | sequence
  | mapping
  | set
  | orderedMap
  | pairs
  | other (tag : String)
  deriving DecidableEq, Repr

namespace ValueSort

/-- What the tags of the standard sorts begin with. -/
def standardTags : String := "tag:yaml.org,2002:"

/-- The standard sorts by the ends of their tags. -/
def standard : List (String × ValueSort) :=
  [("null", null), ("bool", bool), ("int", int), ("float", float), ("timestamp", timestamp),
    ("binary", binary), ("str", text), ("merge", merge), ("value", value), ("seq", sequence),
    ("map", mapping), ("set", set), ("omap", orderedMap), ("pairs", pairs)]

/-- The sort that a tag names. -/
def ofTag (tag : String) : ValueSort :=
  ((standard.map fun (name, sort) => (standardTags ++ name, sort)).lookup tag).getD (other tag)

/-- The tag of a sort. -/
def tag : ValueSort → String
  | other tag => tag
  | sort => standardTags ++ ((standard.find? fun s => s.2 == sort).map Prod.fst).getD ""

end ValueSort

namespace Plain

/-! ## Forms -/

def isDigit (c : Char) : Bool := '0' ≤ c && c ≤ '9'

def isGrouped (c : Char) : Bool := isDigit c || c == '_'

def isSign (c : Char) : Bool := c == '+' || c == '-'

def dropSign : List Char → List Char
  | c :: s => if isSign c then s else c :: s
  | [] => []

/-- The pieces of a text between colons. -/
def colonParts : List Char → List (List Char)
  | [] => [[]]
  | c :: s =>
    match colonParts s with
    | [] => [[c]]
    | first :: rest => if c == ':' then [] :: first :: rest else (c :: first) :: rest

/-- Whether a piece is a number below sixty. -/
def isBelowSixty : List Char → Bool
  | [c] => isDigit c
  | [c, d] => '0' ≤ c && c ≤ '5' && isDigit d
  | _ => false

/-- Whether a text is a number and then numbers below sixty, with colons between them. -/
def isSixties (first : List Char → Bool) (s : List Char) : Bool :=
  match colonParts s with
  | a :: b :: rest => first a && (b :: rest).all isBelowSixty
  | _ => false

def isPositive : List Char → Bool
  | c :: s => '1' ≤ c && c ≤ '9' && s.all isGrouped
  | [] => false

def isGroupedNumber : List Char → Bool
  | c :: s => isDigit c && s.all isGrouped
  | [] => false

/-- Whole numbers: binary, octal, hexadecimal, decimal, or in groups of sixty. -/
def isInt (s : List Char) : Bool :=
  match dropSign s with
  | '0' :: 'b' :: r => !r.isEmpty && r.all fun c => c == '0' || c == '1' || c == '_'
  | '0' :: 'x' :: r => !r.isEmpty && r.all fun c => (hexDigit? c).isSome || c == '_'
  | '0' :: r => r.all fun c => ('0' ≤ c && c ≤ '7') || c == '_'
  | s => isPositive s || isSixties isPositive s

/-- Whether a text is empty or a power of ten, whose sign must be written. -/
def isPowerOrEmpty : List Char → Bool
  | [] => true
  | e :: sign :: c :: s => (e == 'e' || e == 'E') && isSign sign && (c :: s).all isDigit
  | _ => false

/-- The text before the first point and after it. -/
def splitPoint? (s : List Char) : Option (List Char × List Char) :=
  match s.dropWhile (· != '.') with
  | _ :: after => some (s.takeWhile (· != '.'), after)
  | [] => none

/-- Numbers with a point, and the words for infinity and for what is no number. -/
def isFloat (s : List Char) : Bool :=
  let word := String.ofList s
  let unsigned := String.ofList (dropSign s)
  [".inf", ".Inf", ".INF"].contains unsigned || [".nan", ".NaN", ".NAN"].contains word ||
    match splitPoint? s with
    | none => false
    | some ([], after) => isGroupedNumber (after.takeWhile isGrouped) &&
        isPowerOrEmpty (after.dropWhile isGrouped)
    | some (before, after) =>
      let before := dropSign before
      (isGroupedNumber before && isPowerOrEmpty (after.dropWhile isGrouped)) ||
        (isSixties isGroupedNumber before && after.all isGrouped)

/-! ## Dates -/

/-- A date as it is written, with the time of day if there is one. -/
structure DateForm where
  year : List Char
  month : List Char
  day : List Char
  hour : List Char := []
  minute : List Char := []
  second : List Char := []
  fraction : List Char := []
  /-- The offset: its sign, hours and minutes; without a sign it is zero. -/
  zone : Option (Option Bool × List Char × List Char) := none

/-- Between `least` and `most` digits at the front, as many as there are. -/
def digits? (least most : Nat) (s : List Char) : Option (List Char × List Char) :=
  let ds := (s.take most).takeWhile isDigit
  if least ≤ ds.length then some (ds, s.drop ds.length) else none

/-- The character `c` at the front. -/
def char? (c : Char) : List Char → Option (List Char)
  | d :: s => if c == d then some s else none
  | [] => none

def isBlank (c : Char) : Bool := c == ' ' || c == '\t'

/-- An offset at the end, after blanks. -/
def zone? (s : List Char) : Option (Option (Option Bool × List Char × List Char)) :=
  if s.isEmpty then some none
  else
    match s.dropWhile isBlank with
    | ['Z'] => some (some (none, [], []))
    | c :: s =>
      if !isSign c then none
      else do
        let (hours, s) ← digits? 1 2 s
        if s.isEmpty then return some (some (c == '-'), hours, [])
        let (minutes, s) ← char? ':' s >>= digits? 2 2
        if s.isEmpty then return some (some (c == '-'), hours, minutes)
        none
    | [] => none

/-- What follows the gap between a date and a time of day. -/
def afterDate? : List Char → Option (List Char)
  | [] => none
  | c :: s =>
    if c == 'T' || c == 't' then some s
    else if isBlank c then some (s.dropWhile isBlank)
    else none

/-- The date with a time of day that follows it. -/
def withTime? (date : DateForm) (s : List Char) : Option DateForm := do
  let (hour, s) ← afterDate? s >>= digits? 1 2
  let (minute, s) ← char? ':' s >>= digits? 2 2
  let (second, s) ← char? ':' s >>= digits? 2 2
  let (fraction, s) := match s with
    | '.' :: s => (s.takeWhile isDigit, s.dropWhile isDigit)
    | _ => ([], s)
  let zone ← zone? s
  return { date with
    hour := hour, minute := minute, second := second, fraction := fraction, zone := zone }

/-- A date, alone or with a time of day after it. -/
def dateForm? (s : List Char) : Option DateForm := do
  let (year, s) ← digits? 4 4 s
  let (month, s) ← char? '-' s >>= digits? 1 2
  let (day, s) ← char? '-' s >>= digits? 1 2
  let date : DateForm := { year := year, month := month, day := day }
  if s.isEmpty then some date else withTime? date s

/-- Whether a text is a date.  A date alone has two digits for month and day. -/
def isTimestamp (s : List Char) : Bool :=
  match dateForm? s with
  | none => false
  | some d => !d.hour.isEmpty || (d.month.length == 2 && d.day.length == 2)

/-! ## Sorts -/

def truths : List (String × Bool) :=
  [("yes", true), ("no", false), ("true", true), ("false", false), ("on", true), ("off", false)]

/-- The spellings of a word in lower case, with a capital, and in upper case. -/
def spellings (word : String) : List String :=
  match word.toList with
  | [] => []
  | c :: s => [word, String.ofList (c.toUpper :: s), String.ofList ((c :: s).map Char.toUpper)]

def nulls : List String := ["", "~"] ++ spellings "null"

/-- The text without a line feed at its end. -/
def dropLineFeed (s : List Char) : List Char := if s.getLast? == some '\n' then s.dropLast else s

/-- The characters that stand for no value of their own. -/
def reserved : List String := ["!", "&", "*"]

/-- The sort of value that a text without a line feed at its end stands for. -/
def sortOf (text : String) : ValueSort :=
  let s := text.toList
  if (truths.flatMap fun (word, _) => spellings word).contains text then .bool
  else if isFloat s then .float
  else if isInt s then .int
  else if text == "<<" then .merge
  else if nulls.contains text then .null
  else if isTimestamp s then .timestamp
  else if text == "=" then .value
  else if reserved.contains text then .other (ValueSort.standardTags ++ "yaml")
  else .text

/-- The sort of value that a text stands for.  A line feed at the end does not count, unless there is
nothing else. -/
def sort (text : String) : ValueSort :=
  if text == "\n" then .text else sortOf (String.ofList (dropLineFeed text.toList))

/-! ## Values -/

def natOf (digits : List Char) : Nat := digits.foldl (fun n c => 10 * n + (c.toNat - 48)) 0

/-- The number that digits of a base denote. -/
def inBase (base : Nat) (s : List Char) : Except ValueFault Int :=
  match Numeral.inBase? base (String.ofList s) with
  | some n => .ok n
  | none => .error (.notInBase base (String.ofList s))

def decimal (s : List Char) : Except ValueFault Int :=
  (Numeral.read (String.ofList s)).mapError .numeral

/-- A number in groups of sixty. -/
def sixties (parts : List Int) : Int := parts.foldl (fun n d => 60 * n + d) 0

/-- Splits a sign off, if there is one; the flag says whether it is a minus. -/
def splitSign : List Char → Bool × List Char
  | c :: s => if isSign c then (c == '-', s) else (false, c :: s)
  | [] => (false, [])

/-- The number that digits without a sign denote; the first characters tell the base. -/
def unsigned (s : List Char) : Except ValueFault Int :=
  match s with
  | [] => .error .emptyNumber
  | ['0'] => .ok 0
  | '0' :: 'b' :: r => inBase 2 r
  | '0' :: 'x' :: r => inBase 16 r
  | '0' :: r => inBase 8 ('0' :: r)
  | s => if s.contains ':' then ((colonParts s).mapM decimal).map sixties else decimal s

def intValue (text : String) : Except ValueFault Int :=
  let (negative, s) := splitSign (text.toList.filter (· != '_'))
  (unsigned s).map fun n => if negative then -n else n

/-- The least number that is too large for a double. -/
def doubleBound : Int := powerOfTwo 1024 - powerOfTwo 970

/-- The sum of numbers in groups of sixty, least first, rounded at every step. -/
def floatSixties (base : Int) (sum : Double) : List Double → Except ValueFault Double
  | [] => .ok sum
  | d :: rest =>
    if doubleBound ≤ base then .error .scaleTooLarge
    else floatSixties (base * 60) (sum.add (d.multiply (Double.ofInt base))) rest

/-- The double that a piece of a text denotes. -/
def floatPart (s : List Char) : Except ValueFault Double :=
  match Double.ofText? s with
  | some x => .ok x
  | none => .error (.notFloat (String.ofList s))

/-- The double that a text in lower case without a sign denotes. -/
def unsignedFloat (s : List Char) : Except ValueFault Double := do
  let word := String.ofList s
  if word == ".inf" then return .infinity false
  if word == ".nan" then return .nan
  if s.contains ':' then floatSixties 1 (Double.ofInt 0) (← (colonParts s).mapM floatPart).reverse
  else floatPart s

/-- A text in lower case without underscores. -/
def plainNumber (text : String) : List Char := Text.lower (text.toList.filter (· != '_'))

def floatValue (text : String) : Except ValueFault Double :=
  match plainNumber text with
  | [] => .error .emptyNumber
  | s =>
    let (negative, s) := splitSign s
    (unsignedFloat s).map fun x => if negative then x.negate else x

/-- Whether a text is the word for what is no number. -/
def isNanWord (text : String) : Bool := (splitSign (plainNumber text)).2 == ".nan".toList

def boolValue (text : String) : Except ValueFault Bool :=
  let word := Text.lowercase text
  match truths.lookup word with
  | some b => .ok b
  | none => .error (.notBool word)

def checkDate (d : Date) : Except ValueFault Unit :=
  if d.year = 0 then .error (.badYear d.year)
  else if d.month = 0 || 12 < d.month then .error .badMonth
  else if !d.isValid then .error .badDay
  else .ok ()

/-- The offset in seconds. -/
def offset (z : Option Bool × List Char × List Char) : Except ValueFault Int :=
  match z with
  | (none, _, _) => .ok 0
  | (some negative, hours, minutes) =>
    let n : Int := natOf hours * 3600 + natOf minutes * 60
    let n := if negative then -n else n
    if n.natAbs < 86400 then .ok n else .error (.badOffset n)

/-- The date that a text stands for; a line feed at its end does not count. -/
def dateValue (text : String) : Except ValueFault Document := do
  match dateForm? (dropLineFeed text.toList) with
  | none => throw .notTimestamp
  | some f =>
    let date : Date := ⟨natOf f.year, natOf f.month, natOf f.day⟩
    if f.hour.isEmpty then
      checkDate date
      return .date date
    let zone ← f.zone.mapM offset
    checkDate date
    let hour := natOf f.hour
    let minute := natOf f.minute
    let second := natOf f.second
    if 23 < hour then throw .badHour
    if 59 < minute then throw .badMinute
    if 59 < second then throw .badSecond
    let micro := natOf ((f.fraction ++ List.replicate 6 '0').take 6)
    return .instant ⟨date, hour, minute, second, micro, zone⟩

end Plain

end BlockSketch.Yaml
