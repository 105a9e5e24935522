import ViewMarkup.Text.Quoted

namespace ViewMarkup

/-- Why a YAML text gives no value. -/
inductive YamlError where
  /-- The text is not well formed, or a node has a kind that its content does not fit. -/
  | malformed
  /-- An escape stands for a number that is no code point. -/
  | codePoint
  /-- An escape stands for a number that does not fit into 31 bits. -/
  | hugeCodePoint
  /-- A text that should be a whole number in a base. -/
  | notInteger (base : Nat) (spelled : Text)
  /-- A whole number with more digits than are read. -/
  | longInteger (digits : Nat)
  /-- A text that should be a number with a point. -/
  | notFloat (spelled : Text)
  /-- A number without a single character. -/
  | emptyNumber
  /-- A number to the base sixty with more parts than a double has room for. -/
  | hugeFactor
  /-- A text that should be true or false. -/
  | notBool (word : Text)
  /-- A text that should be a date. -/
  | notTimestamp
  | year (given : Nat)
  | month
  | day
  | hour
  | minute
  | second
  /-- The offset of a local time is a day or more; it is given in minutes. -/
  | offset (minutes : Int)
  deriving DecidableEq, Repr

namespace YamlError

/-- The most digits that a whole number in decimal notation has. -/
def digitLimit : Nat := 4300

/-- A span of minutes as days and seconds, of which the seconds are not negative. -/
def spanText (minutes : Int) : Text :=
  let days := Int.fdiv minutes 1440
  let seconds := 60 * Int.fmod minutes 1440
  let parts : List Text :=
    (if days = 0 then [] else ["days=".toList ++ Text.ofInt days]) ++
      (if seconds = 0 then [] else ["seconds=".toList ++ Text.ofInt seconds])
  "datetime.timedelta(" ++ (if parts = [] then "0".toList else Text.join ", " parts) ++ ")"

/-- The message of an error. -/
def message : YamlError → Text
  | malformed => "Invalid config.yaml"
  | codePoint => "chr() arg not in range(0x110000)"
  | hugeCodePoint => "Python int too large to convert to C int"
  | notInteger base spelled =>
    "invalid literal for int() with base " ++ Text.ofNat base ++ ": " ++ (Text.quoted spelled).take 200
  | longInteger digits =>
    "Exceeds the limit (" ++ Text.ofNat digitLimit ++ " digits) for integer string conversion: value has " ++
      Text.ofNat digits ++ " digits; use sys.set_int_max_str_digits() to increase the limit"
  | notFloat spelled => "could not convert string to float: " ++ Text.quoted spelled
  | emptyNumber => "string index out of range"
  | hugeFactor => "int too large to convert to float"
  | notBool word => Text.quoted word
  | notTimestamp => "'NoneType' object has no attribute 'groupdict'"
  | year given => "year " ++ Text.ofNat given ++ " is out of range"
  | month => "month must be in 1..12"
  | day => "day is out of range for month"
  | hour => "hour must be in 0..23"
  | minute => "minute must be in 0..59"
  | second => "second must be in 0..59"
  | offset minutes =>
    "offset must be a timedelta strictly between -timedelta(hours=24) and timedelta(hours=24), not " ++
      spanText minutes ++ "."

/-- Whether the error is one that a run does not expect and so does not report. -/
def isCrash : YamlError → Bool
  | hugeCodePoint | emptyNumber | hugeFactor | notBool _ | notTimestamp => true
  | _ => false

end YamlError

end ViewMarkup
