import BlockSketch.Number.Double

/-!
# Dates and instants

Civil dates of the Gregorian calendar, instants on the wall clock with or without an offset from
universal time, their texts, and the millisecond stamp of an instant.
-/

namespace BlockSketch

/-- A civil date. -/
structure Date where
  year : Nat
  month : Nat
  day : Nat
  deriving DecidableEq, Repr, Inhabited

/-- A reading of the wall clock; the offset from universal time, if known, is in seconds. -/
structure Instant where
  date : Date
  hour : Nat
  minute : Nat
  second : Nat
  micro : Nat
  offset : Option Int
  deriving DecidableEq, Repr, Inhabited

/-- The decimal digits of `n`, with zeros in front up to the width. -/
def padded (width n : Nat) : String :=
  let ds := Nat.toDigits 10 n
  String.ofList (List.replicate (width - ds.length) '0' ++ ds)

namespace Date

def isLeap (year : Nat) : Bool := year % 4 == 0 && (year % 100 != 0 || year % 400 == 0)

def daysInMonth (year month : Nat) : Nat :=
  if month == 2 then (if isLeap year then 29 else 28)
  else if month == 4 || month == 6 || month == 9 || month == 11 then 30
  else 31

/-- Whether the date exists; years run from 1 to 9999. -/
def isValid (d : Date) : Bool :=
  1 ≤ d.year && d.year ≤ 9999 && 1 ≤ d.month && d.month ≤ 12 && 1 ≤ d.day &&
    d.day ≤ daysInMonth d.year d.month

/-- Days from the first day of year 1 to the first day of a year. -/
def daysBeforeYear (year : Nat) : Nat :=
  let y := year - 1
  365 * y + y / 4 - y / 100 + y / 400

/-- Days of the year before the first of a month. -/
def daysBeforeMonth (year month : Nat) : Nat :=
  (List.range (month - 1)).foldl (fun days m => days + daysInMonth year (m + 1)) 0

/-- Days since the first of January 1970. -/
def epochDay (d : Date) : Int :=
  (daysBeforeYear d.year + daysBeforeMonth d.year d.month + d.day : Int) - 719163

/-- Year, month and day with hyphens. -/
def text (d : Date) : String := s!"{padded 4 d.year}-{padded 2 d.month}-{padded 2 d.day}"

/-- A number of exactly `width` ASCII digits at the front, and what follows it. -/
def digits? (width : Nat) (s : List Char) : Option (Nat × List Char) :=
  let ds := s.take width
  if ds.length == width && ds.all Char.isDigit then
    some (ds.foldl (fun n c => 10 * n + (c.toNat - 48)) 0, s.drop width)
  else none

/-- Reads `YYYY-MM-DD` at the front of a text. -/
def read? (s : List Char) : Option (Date × List Char) := do
  let (year, s) ← digits? 4 s
  let s ← if s.head? = some '-' then some s.tail else none
  let (month, s) ← digits? 2 s
  let s ← if s.head? = some '-' then some s.tail else none
  let (day, s) ← digits? 2 s
  let d : Date := ⟨year, month, day⟩
  if d.isValid then some (d, s) else none

/-- Year, month and day of the day that is so many days after the first of January 1970.  Days are
counted from the first of March of a year that starts a cycle of four centuries, so that leap days come
last. -/
def civil (days : Int) : Int × Nat × Nat :=
  let n := days + 719468
  let cycle := n.fdiv 146097
  let d := (n - cycle * 146097).toNat
  let year := (d - d / 1460 + d / 36524 - d / 146096) / 365
  let inYear := d - (365 * year + year / 4 - year / 100)
  let fromMarch := (5 * inYear + 2) / 153
  let month := if fromMarch < 10 then fromMarch + 3 else fromMarch - 9
  ((year : Int) + cycle * 400 + if month ≤ 2 then 1 else 0, month,
    inYear - (153 * fromMarch + 2) / 5 + 1)

/-- The date that is so many days after the first of January 1970. -/
def ofEpochDay (days : Int) : Date :=
  let (year, month, day) := civil days
  ⟨year.toNat, month, day⟩

end Date

namespace Instant

/-- The instant, in universal time, that is so many seconds after the start of 1970. -/
def ofEpochSeconds (seconds : Int) : Instant :=
  let s := (seconds.fmod 86400).toNat
  ⟨.ofEpochDay (seconds.fdiv 86400), s / 3600, s / 60 % 60, s % 60, 0, some 0⟩

/-- Seconds since the first of January 1970, as the clock on the wall shows them. -/
def wallSeconds (t : Instant) : Int :=
  t.date.epochDay * 86400 + (t.hour * 3600 + t.minute * 60 + t.second : Nat)

/-- Microseconds since 1970 in universal time; without an offset the wall clock is taken to be it. -/
def epochMicros (t : Instant) : Int :=
  (t.wallSeconds - t.offset.getD 0) * 1000000 + t.micro

/-- Whether two instants are the same: both have an offset and are one moment, or neither has one and
the clock shows the same. -/
def isSame (t u : Instant) : Bool := t.offset.isSome == u.offset.isSome && t.epochMicros == u.epochMicros

/-- Seconds since 1970 as a double.  With an offset the quotient is rounded once; without one the
fraction of the second is rounded before it is added. -/
def timestamp (t : Instant) : Double :=
  match t.offset with
  | some _ => Double.ofIntRatio t.epochMicros 1000000
  | none => ((Double.ofInt t.wallSeconds).add? (Double.ofIntRatio t.micro 1000000)).getD .nan

/-- Milliseconds since 1970: the timestamp times a thousand, rounded as a double and truncated. -/
def milliseconds (t : Instant) : Int := (t.timestamp.scale? 1000 >>= Double.truncate?).getD 0

/-- The offset as hours and minutes, and seconds if there are any. -/
def offsetText : Option Int → String
  | none => ""
  | some o =>
    let s := o.natAbs
    let body := s!"{padded 2 (s / 3600)}:{padded 2 (s / 60 % 60)}"
    (if o < 0 then "-" else "+") ++ body ++ (if s % 60 = 0 then "" else s!":{padded 2 (s % 60)}")

/-- Time of day, with microseconds only if there are any. -/
def timeText (t : Instant) : String :=
  let body := s!"{padded 2 t.hour}:{padded 2 t.minute}:{padded 2 t.second}"
  if t.micro = 0 then body else s!"{body}.{padded 6 t.micro}"

/-- Date, separator, time of day and offset. -/
def text (separator : String) (t : Instant) : String :=
  t.date.text ++ separator ++ t.timeText ++ offsetText t.offset

/-- Date and time of day to the second; here the year has no leading zeros. -/
def display (t : Instant) : String :=
  s!"{t.date.year}-{padded 2 t.date.month}-{padded 2 t.date.day} " ++
    s!"{padded 2 t.hour}:{padded 2 t.minute}:{padded 2 t.second}"

/-- Date and time of day to the millisecond, after a comma. -/
def precise (t : Instant) : String :=
  s!"{t.date.text} {padded 2 t.hour}:{padded 2 t.minute}:{padded 2 t.second},{padded 3 (t.micro / 1000)}"

/-- Reads an offset such as `+05:30` or `Z`. -/
def readOffset? : List Char → Option (Option Int)
  | [] => some none
  | ['Z'] => some (some 0)
  | c :: s => do
    let sign : Int ← if c = '+' then some 1 else if c = '-' then some (-1) else none
    let (h, s) ← Date.digits? 2 s
    let s := if s.head? = some ':' then s.tail else s
    let (m, s) ← Date.digits? 2 s
    let s := if s.head? = some ':' then s.tail else s
    let (sec, s) ← if s.isEmpty then some (0, []) else Date.digits? 2 s
    if s.isEmpty then some (some (sign * (h * 3600 + m * 60 + sec : Nat))) else none

/-- Reads a fraction of a second: up to six digits count. -/
def readFraction (s : List Char) : Nat × List Char :=
  match s with
  | '.' :: s =>
    let ds := s.takeWhile Char.isDigit
    let six := (ds ++ List.replicate 6 '0').take 6
    (six.foldl (fun n c => 10 * n + (c.toNat - 48)) 0, s.dropWhile Char.isDigit)
  | s => (0, s)

/-- Reads a date and a time of day with any one character between them. -/
def read? (text : String) : Option Instant := do
  let (date, s) ← Date.read? text.toList
  if s.isEmpty then return ⟨date, 0, 0, 0, 0, none⟩
  let (hour, s) ← Date.digits? 2 s.tail
  let (minute, s) ← Date.digits? 2 (if s.head? = some ':' then s.tail else s)
  let (second, s) ←
    if s.head? = some ':' then Date.digits? 2 s.tail else some (0, s)
  let (micro, s) := readFraction s
  let offset ← readOffset? s
  return ⟨date, hour, minute, second, micro, offset⟩

end Instant

/-- Why a number of seconds is no moment of the system's clock. -/
inductive MomentFault where
  | notNumber
  | outOfRange
  /-- The year is too large for the calendar. -/
  | yearTooLarge
  deriving DecidableEq, Repr

def MomentFault.message : MomentFault → String
  | notNumber => "Invalid value NaN (not a number)"
  | outOfRange => "timestamp out of range for platform time_t"
  | yearTooLarge => "[Errno 75] Value too large for defined data type"

namespace Moment

/-- The bound on seconds. -/
def secondsBound : Int := powerOfTwo 63

/-- The bound on years, counted from 1900. -/
def yearBound : Int := powerOfTwo 31

/-- Date, time of day and offset of the moment so many seconds after the start of 1970, in universal
time.  Years have no leading zeros. -/
def stampOfSeconds (seconds : Int) : Except MomentFault String :=
  let (year, month, day) := Date.civil (seconds.fdiv 86400)
  let s := (seconds.fmod 86400).toNat
  if year - 1900 < -yearBound || yearBound ≤ year - 1900 then .error .yearTooLarge
  else .ok (s!"{year}-{padded 2 month}-{padded 2 day}T" ++
    s!"{padded 2 (s / 3600)}:{padded 2 (s / 60 % 60)}:{padded 2 (s % 60)}+0000")

/-- The stamp of a whole number of seconds. -/
def stampOfInt (seconds : Int) : Except MomentFault String :=
  if seconds < -secondsBound || secondsBound ≤ seconds then .error .outOfRange
  else stampOfSeconds seconds

/-- The stamp of a number of seconds whose fraction is rounded down. -/
def stampOfDouble : Double → Except MomentFault String
  | .nan => .error .notNumber
  | x =>
    match x.value? with
    | none => .error .outOfRange
    | some (numerator, denominator) =>
      let seconds := numerator.fdiv denominator
      if seconds < -secondsBound || secondsBound < seconds then .error .outOfRange
      else stampOfSeconds seconds

end Moment

end BlockSketch
