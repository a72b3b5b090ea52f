import BlockSketch.Number.Numeral
import BlockSketch.Yaml.Fault

/-!
# Why a text is no document

Besides faults of form there are values that do not fit their sort, codes that are no characters, and
texts that cannot be read at all.
-/

namespace BlockSketch.Yaml

/-- Why a text does not fit the sort of value that it is to stand for. -/
inductive ValueFault where
  | numeral (fault : NumeralFault)
  | notInBase (base : Nat) (text : String)
  | notFloat (text : String)
  | emptyNumber
  | scaleTooLarge
  | notBool (text : String)
  | notTimestamp
  | notText
  | badYear (year : Nat)
  | badMonth
  | badDay
  | badHour
  | badMinute
  | badSecond
  | badOffset (seconds : Int)
  | codeOutOfRange
  | codeTooLarge
  deriving DecidableEq, Repr

/-- A span of seconds as days and seconds of a day. -/
def spanText (seconds : Int) : String :=
  let days := seconds.fdiv 86400
  let rest := seconds.fmod 86400
  ", ".intercalate ((if days ≠ 0 then [s!"days={days}"] else []) ++
    (if rest ≠ 0 then [s!"seconds={rest}"] else []))

def ValueFault.message : ValueFault → String
  | numeral fault => fault.message
  | notInBase base text =>
    s!"invalid literal for int() with base {base}: " ++
      String.ofList ((Text.quotedList text.toList).take 200)
  | notFloat text => s!"could not convert string to float: {Text.quoted text}"
  | emptyNumber => "string index out of range"
  | scaleTooLarge => "int too large to convert to float"
  | notBool text => Text.quoted text
  | notTimestamp => "'NoneType' object has no attribute 'groupdict'"
  | notText => "expected string or bytes-like object, got 'list'"
  | badYear year => s!"year {year} is out of range"
  | badMonth => "month must be in 1..12"
  | badDay => "day is out of range for month"
  | badHour => "hour must be in 0..23"
  | badMinute => "minute must be in 0..59"
  | badSecond => "second must be in 0..59"
  | badOffset seconds =>
    "offset must be a timedelta strictly between -timedelta(hours=24) and timedelta(hours=24), " ++
      s!"not datetime.timedelta({spanText seconds})."
  | codeOutOfRange => "chr() arg not in range(0x110000)"
  | codeTooLarge => "Python int too large to convert to C int"

/-- Why a text is not a document. -/
inductive Error where
  | undecodable (fault : Utf8.Fault)
  | unprintable (code : Nat) (position : Nat)
  | malformed (fault : Fault)
  | value (fault : ValueFault)
  | tooDeep
  deriving DecidableEq, Repr

/-- The message about a text of a file. -/
def Error.message (file : String) : Error → String
  | undecodable fault => fault.message
  | unprintable code position =>
    s!"unacceptable character #x{String.ofList (Text.hex 4 code)}: special characters are not " ++
      s!"allowed\n  in \"{file}\", position {position}"
  | malformed fault => fault.message file
  | value fault => fault.message
  | tooDeep => "maximum recursion depth exceeded"

/-- Whether the fault is one of form. -/
def Error.isForm : Error → Bool
  | unprintable _ _ => true
  | malformed _ => true
  | _ => false

end BlockSketch.Yaml
