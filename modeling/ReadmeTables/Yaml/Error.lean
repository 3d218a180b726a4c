import ReadmeTables.Number.Literal
import ReadmeTables.Text.Quoted
/-!
What can be wrong with a YAML document.

Most faults make the document malformed. The others are values that have the form of their
type and still no value, such as a month of 13.
-/

namespace ReadmeTables.Yaml

-- The parts of a date and time that have a range.
inductive MomentFault where
  | year
  | month
  | day
  | hour
  | minute
  | second
  | offset (negative : Bool) (hours minutes : Nat)
deriving DecidableEq

inductive Error where
  | malformed
  | codePointRange
  | codePointSize
  | tooManyDigits (count : Nat)
  | badWhole (base : Nat) (text : Text)
  | badReal (text : Text)
  | realTooLarge
  | emptyNumber
  | badTruth (text : Text)
  | badMoment
  | momentOfPairs
  | momentRange (fault : MomentFault)
deriving DecidableEq

-- An offset in days and seconds, the seconds never being negative.
def offsetDays (negative : Bool) (hours minutes : Nat) : Int × Nat :=
  let size : Int := ((hours * 60 + minutes) * 60 : Nat)
  let seconds := if negative then -size else size
  (Int.fdiv seconds 86400, (Int.fmod seconds 86400).toNat)

def offsetText (negative : Bool) (hours minutes : Nat) : Text :=
  let (days, seconds) := offsetDays negative hours minutes
  let dayPart : List Text := if days = 0 then [] else ["days=" ++ Text.ofInt days]
  let secondPart : List Text := if seconds = 0 then [] else ["seconds=" ++ Text.ofNat seconds]
  "datetime.timedelta(" ++ Text.join ", " (dayPart ++ secondPart) ++ ")"

def MomentFault.message : MomentFault → Text
  | year => "year 0 is out of range"
  | month => "month must be in 1..12"
  | day => "day is out of range for month"
  | hour => "hour must be in 0..23"
  | minute => "minute must be in 0..59"
  | second => "second must be in 0..59"
  | offset negative hours minutes =>
    "offset must be a timedelta strictly between -timedelta(hours=24) and timedelta(hours=24), not "
      ++ offsetText negative hours minutes ++ "."

-- The most of a quoted text that a message about a whole number shows.
def wholeTextLimit : Nat := 200

-- The message of a value without meaning. A malformed document is described by whoever reads
-- it, and its place in the text is not.
def Error.message : Error → Text
  | malformed => []
  | codePointRange => "chr() arg not in range(0x110000)"
  | codePointSize => "Python int too large to convert to C int"
  | tooManyDigits count =>
    "Exceeds the limit (4300 digits) for integer string conversion: value has "
      ++ Text.ofNat count ++ " digits; use sys.set_int_max_str_digits() to increase the limit"
  | badWhole base text =>
    "invalid literal for int() with base " ++ Text.ofNat base ++ ": "
      ++ (Text.quoted text).take wholeTextLimit
  | badReal text => "could not convert string to float: " ++ Text.quoted text
  | realTooLarge => "int too large to convert to float"
  | emptyNumber => "string index out of range"
  | badTruth text => Text.quoted text
  | badMoment => "'NoneType' object has no attribute 'groupdict'"
  | momentOfPairs => "expected string or bytes-like object, got 'list'"
  | momentRange fault => fault.message

end ReadmeTables.Yaml
