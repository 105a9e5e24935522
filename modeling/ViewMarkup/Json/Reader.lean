import ViewMarkup.Json.Basic
import ViewMarkup.Numeral.Literal

namespace ViewMarkup

/-- What is wrong with a JSON text. -/
inductive JsonFault where
  | byteOrderMark
  | valueExpected
  | nameExpected
  | colonExpected
  | commaExpected
  | extraData
  | unterminatedString
  | controlCharacter
  | invalidEscape
  | invalidUnicodeEscape
  deriving DecidableEq, Repr

/-- The wording of a fault. -/
def JsonFault.message : JsonFault → Text
  | byteOrderMark => "Unexpected UTF-8 BOM (decode using utf-8-sig)"
  | valueExpected => "Expecting value"
  | nameExpected => "Expecting property name enclosed in double quotes"
  | colonExpected => "Expecting ':' delimiter"
  | commaExpected => "Expecting ',' delimiter"
  | extraData => "Extra data"
  | unterminatedString => "Unterminated string starting at"
  | controlCharacter => "Invalid control character at"
  | invalidEscape => "Invalid \\escape"
  | invalidUnicodeEscape => "Invalid \\uXXXX escape"

/-- Why a JSON text cannot be read. -/
inductive JsonError where
  /-- A fault; lines and columns count from one, offsets from zero. -/
  | malformed (fault : JsonFault) (line column offset : Nat)
  /-- An integer with more digits than are read. -/
  | integerTooLong (digits : Nat)
  deriving DecidableEq, Repr

/-- The greatest number of digits of an integer. -/
def integerDigitLimit : Nat := 4300

/-- The wording of an error. -/
def JsonError.message : JsonError → Text
  | malformed fault line column offset =>
    fault.message ++ ": line " ++ Text.ofNat line ++ " column " ++ Text.ofNat column ++
      " (char " ++ Text.ofNat offset ++ ")"
  | integerTooLong digits =>
    "Exceeds the limit (" ++ Text.ofNat integerDigitLimit ++
      " digits) for integer string conversion: value has " ++ Text.ofNat digits ++
      " digits; use sys.set_int_max_str_digits() to increase the limit"

namespace Json

/-- Why a scan stopped: at a fault, with the text that was left there, or at a long integer. -/
inductive Stop where
  | fault (fault : JsonFault) (rest : Text)
  | integerTooLong (digits : Nat)

/-- The outcome of a scan: a result and the rest of the text. -/
abbrev Scan (α : Type) := Except Stop (α × Text)

/-- The rest after blanks. Only these four characters are blank between the parts of a JSON text. -/
def skipBlanks (t : Text) : Text :=
  t.dropWhile fun c => c == ' ' || c == '\t' || c == '\n' || c == '\r'

/-- The value of a hexadecimal digit. -/
def hexValue? (c : Char) : Option Nat :=
  if c.isDigit then some (c.toNat - '0'.toNat)
  else if 'a' ≤ c ∧ c ≤ 'f' then some (c.toNat - 'a'.toNat + 10)
  else if 'A' ≤ c ∧ c ≤ 'F' then some (c.toNat - 'A'.toNat + 10)
  else none

/-- The unit that the first four characters spell in hexadecimal. -/
def unit? : Text → Option Nat
  | a :: b :: c :: d :: _ => do
    return ((← hexValue? a) * 16 + (← hexValue? b)) * 256 + (← hexValue? c) * 16 + (← hexValue? d)
  | _ => none

/-- The first half of a surrogate pair. -/
def isHighSurrogate (n : Nat) : Bool :=
  0xd800 ≤ n && n < 0xdc00

/-- The second half of a surrogate pair. -/
def isLowSurrogate (n : Nat) : Bool :=
  0xdc00 ≤ n && n < 0xe000

/-- The character of a unit that stands alone; half a pair becomes the replacement character. -/
def unitChar (n : Nat) : Char :=
  if isHighSurrogate n || isLowSurrogate n then '\ufffd' else Char.ofNat n

/-- The character that a unicode escape stands for, and how many characters follow its backslash. The
argument is the text after the `u`, which has to reach at least to the closing quote; a second escape
is read along with the first half of a pair. -/
def scanUnit (digits : Text) : Except Stop (Char × Nat) :=
  match (if digits.length ≤ 4 then none else unit? digits) with
  | none => .error (.fault .invalidUnicodeEscape ('u' :: digits))
  | some high =>
    match isHighSurrogate high, digits.drop 4 with
    | true, '\\' :: 'u' :: more =>
      if more.length ≤ 4 then .ok (unitChar high, 5)
      else match unit? more with
        | none => .error (.fault .invalidUnicodeEscape ('u' :: more))
        | some low =>
          if isLowSurrogate low then
            .ok (Char.ofNat (0x10000 + (high - 0xd800) * 0x400 + (low - 0xdc00)), 11)
          else .ok (unitChar high, 5)
    | _, _ => .ok (unitChar high, 5)

/-- The character that an escape stands for, and how many characters follow its backslash. The
arguments are the text from the opening quote and the text after the backslash. -/
def scanEscape (opening : Text) : Text → Except Stop (Char × Nat)
  | [] => .error (.fault .unterminatedString opening)
  | 'u' :: digits => scanUnit digits
  | '"' :: _ => .ok ('"', 1)
  | '\\' :: _ => .ok ('\\', 1)
  | '/' :: _ => .ok ('/', 1)
  | 'b' :: _ => .ok ('\x08', 1)
  | 'f' :: _ => .ok ('\x0c', 1)
  | 'n' :: _ => .ok ('\n', 1)
  | 'r' :: _ => .ok ('\r', 1)
  | 't' :: _ => .ok ('\t', 1)
  | rest => .error (.fault .invalidEscape ('\\' :: rest))

/-- The characters up to the closing quote. The arguments are the text from the opening quote, the
characters so far in reverse, and how many characters of an escape are still to be passed. -/
def scanString (opening : Text) : Text → Nat → Text → Scan Text
  | _, _, [] => .error (.fault .unterminatedString opening)
  | chars, skip + 1, _ :: rest => scanString opening chars skip rest
  | chars, 0, c :: rest =>
    if c = '"' then .ok (chars.reverse, rest)
    else if c = '\\' then
      match scanEscape opening rest with
      | .error stop => .error stop
      | .ok (char, width) => scanString opening (char :: chars) width rest
    else if c.toNat < 0x20 then .error (.fault .controlCharacter (c :: rest))
    else scanString opening (c :: chars) 0 rest

/-- The whole part of a number: a zero, or digits that do not start with one. -/
def wholeDigits : Text → Text
  | '0' :: _ => ['0']
  | t => t.takeWhile Char.isDigit

/-- The digits after a point, if there is a point with a digit behind it. -/
def fractionDigits : Text → Text
  | '.' :: rest => rest.takeWhile Char.isDigit
  | _ => []

/-- A number. With a fraction or an exponent it is a floating-point number, otherwise an integer. -/
def scanNumber (t : Text) : Scan Json :=
  let (negative, body) := match t with
    | '-' :: rest => (true, rest)
    | _ => (false, t)
  match wholeDigits body with
  | [] => .error (.fault .valueExpected t)
  | whole =>
    let rest := body.drop whole.length
    let fraction := fractionDigits rest
    let rest := if fraction.isEmpty then rest else rest.drop (fraction.length + 1)
    let float (exponent : Int) :=
      Json.float (Binary64.ofDecimal negative (digitsValue (whole ++ fraction))
        (exponent - fraction.length))
    match exponent? Char.isDigit rest with
    | some (exponent, rest) => .ok (float exponent, rest)
    | none =>
      if !fraction.isEmpty then .ok (float 0, rest)
      else if integerDigitLimit < whole.length then .error (.integerTooLong whole.length)
      else
        let value : Int := digitsValue whole
        .ok (.int (if negative then -value else value), rest)

/-- The values that are spelled as words. -/
def words : List (Text × Json) :=
  [("null", .null), ("true", .bool true), ("false", .bool false), ("NaN", .float .nan),
   ("Infinity", .float (.infinity false)), ("-Infinity", .float (.infinity true))]

/-- A word or a number. -/
def scanScalar (t : Text) : Scan Json :=
  match words.findSome? fun word => (Text.after? word.1 t).map fun rest => (word.2, rest) with
  | some found => .ok found
  | none => scanNumber t

mutual

/-- A value. The first argument bounds the number of nested and successive values; twice the length of
the text is always enough. -/
def scanValue : Nat → Text → Scan Json
  | 0, t => .error (.fault .valueExpected t)
  | _ + 1, '"' :: rest =>
    (scanString ('"' :: rest) [] 0 rest).map fun (chars, rest) => (.string chars, rest)
  | fuel + 1, '[' :: rest =>
    match skipBlanks rest with
    | ']' :: rest => .ok (.array [], rest)
    | rest => scanItems fuel [] rest
  | fuel + 1, '\x7b' :: rest =>
    match skipBlanks rest with
    | '\x7d' :: rest => .ok (.object [], rest)
    | rest => scanMembers fuel [] rest
  | _ + 1, t => scanScalar t

/-- The items from one on up to the closing bracket; the items before it come in reverse. -/
def scanItems : Nat → List Json → Text → Scan Json
  | 0, _, t => .error (.fault .valueExpected t)
  | fuel + 1, items, t =>
    match scanValue fuel t with
    | .error stop => .error stop
    | .ok (item, rest) =>
      match skipBlanks rest with
      | ']' :: rest => .ok (.array (item :: items).reverse, rest)
      | ',' :: rest => scanItems fuel (item :: items) (skipBlanks rest)
      | rest => .error (.fault .commaExpected rest)

/-- The members from one on up to the closing brace, added to the members before it. -/
def scanMembers : Nat → Fields Json → Text → Scan Json
  | 0, _, t => .error (.fault .valueExpected t)
  | fuel + 1, members, '"' :: t =>
    match scanString ('"' :: t) [] 0 t with
    | .error stop => .error stop
    | .ok (name, rest) =>
      match skipBlanks rest with
      | ':' :: rest =>
        match scanValue fuel (skipBlanks rest) with
        | .error stop => .error stop
        | .ok (value, rest) =>
          match skipBlanks rest with
          | '\x7d' :: rest => .ok (.object (Fields.put name value members), rest)
          | ',' :: rest => scanMembers fuel (Fields.put name value members) (skipBlanks rest)
          | rest => .error (.fault .commaExpected rest)
      | rest => .error (.fault .colonExpected rest)
  | _ + 1, _, t => .error (.fault .nameExpected t)

end

/-- The error for a scan of `source` that stopped. The column counts from the last line feed. -/
def Stop.toError (source : Text) : Stop → JsonError
  | .integerTooLong digits => .integerTooLong digits
  | .fault kind rest =>
    let passed := source.take (source.length - rest.length)
    .malformed kind (passed.count '\n' + 1) ((passed.reverse.takeWhile (· != '\n')).length + 1)
      passed.length

/-- One value with blanks around it. -/
def scanDocument (t : Text) : Except Stop Json :=
  match t with
  | '\ufeff' :: _ => .error (.fault .byteOrderMark t)
  | _ =>
    match scanValue (2 * t.length + 2) (skipBlanks t) with
    | .error stop => .error stop
    | .ok (value, rest) =>
      match skipBlanks rest with
      | [] => .ok value
      | rest => .error (.fault .extraData rest)

/-- The value that a JSON text denotes. Beyond the standard, `NaN`, `Infinity` and `-Infinity` are numbers. -/
def read (t : Text) : Except JsonError Json :=
  (scanDocument t).mapError (Stop.toError t)

end Json

end ViewMarkup
