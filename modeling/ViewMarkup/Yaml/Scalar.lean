import ViewMarkup.Numeral.Literal
import ViewMarkup.Text.Base64
import ViewMarkup.Yaml.Basic
import ViewMarkup.Yaml.Timestamp

namespace ViewMarkup.Yaml

/-- The kinds of nodes. -/
inductive Kind where
  | null
  | bool
  | int
  | float
  | string
  | binary
  | timestamp
  | sequence
  | mapping
  | set
  | orderedMapping
  | pairs
  /-- The key whose value is merged into the mapping. -/
  | merge
  /-- The key of the scalar that a mapping stands for where a scalar is wanted. -/
  | content
  | unknown
  deriving DecidableEq, Repr

namespace Kind

/-- What the names of the common kinds start with. -/
def namespaceText : Text := "tag:yaml.org,2002:"

/-- The common kinds by name. -/
def names : List (Text × Kind) :=
  [("null".toList, null), ("bool".toList, bool), ("int".toList, int), ("float".toList, float),
   ("str".toList, string), ("binary".toList, binary), ("timestamp".toList, timestamp),
   ("seq".toList, sequence), ("map".toList, mapping), ("set".toList, set),
   ("omap".toList, orderedMapping), ("pairs".toList, pairs), ("merge".toList, merge),
   ("value".toList, content)]

/-- The kind with a full name. -/
def ofName (t : Text) : Kind :=
  ((Text.after? namespaceText t).bind fun name => names.lookup name).getD unknown

/-- Whether values of the kind are made of nodes. -/
def isCollection : Kind → Bool
  | sequence | mapping | set | orderedMapping | pairs => true
  | _ => false

end Kind

/-- The sign of a number, and the rest. -/
def splitSign : Text → Bool × Text
  | '-' :: rest => (true, rest)
  | '+' :: rest => (false, rest)
  | t => (false, t)

/-- Whether a text is digits and underscores that start with a digit. -/
def isDigitRun : Text → Bool
  | [] => false
  | c :: rest => c.isDigit && rest.all fun c => c.isDigit || c == '_'

/-- Whether a text is a part of a number to the base sixty: one digit, or two of which the first is below
six. -/
def isSexagesimal : Text → Bool
  | [a] => a.isDigit
  | [a, b] => '0' ≤ a && a ≤ '5' && b.isDigit
  | _ => false

/-- Whether a text is a digit run, perhaps with parts to the base sixty after it. -/
def isPartedRun (t : Text) : Bool :=
  match Text.split ':' t with
  | head :: parts => isDigitRun head && parts.all isSexagesimal
  | [] => false

/-- Whether a character is a digit to the base sixteen. -/
def isHexDigit (c : Char) : Bool :=
  c.isDigit || ('a' ≤ c && c ≤ 'f') || ('A' ≤ c && c ≤ 'F')

/-- Whether an unquoted scalar is a whole number: binary, hexadecimal, octal, decimal, or to the base
sixty. -/
def isInt (t : Text) : Bool :=
  match (splitSign t).2 with
  | [] => false
  | ['0'] => true
  | '0' :: 'b' :: digits => digits != [] && digits.all fun c => c == '0' || c == '1' || c == '_'
  | '0' :: 'x' :: digits => digits != [] && digits.all fun c => isHexDigit c || c == '_'
  | '0' :: digits => digits.all fun c => ('0' ≤ c && c ≤ '7') || c == '_'
  | c :: rest => isPartedRun (c :: rest)

/-- Whether a text is an exponent with its sign. -/
def isExponent : Text → Bool
  | mark :: sign :: digits =>
    (mark == 'e' || mark == 'E') && (sign == '-' || sign == '+') && digits != [] && digits.all Char.isDigit
  | _ => false

/-- The spellings of infinity without a sign. -/
def infinityWords : List Text :=
  [".inf", ".Inf", ".INF"].map String.toList

/-- The spellings of what is no number. -/
def nanWords : List Text :=
  [".nan", ".NaN", ".NAN"].map String.toList

/-- Whether an unquoted scalar is a number with a point. An exponent needs a sign, a number that starts
with the point has none, and a number to the base sixty has no exponent. -/
def isFloat (t : Text) : Bool :=
  let body := (splitSign t).2
  if infinityWords.contains body || nanWords.contains t then true
  else match Text.cut '.' body with
    | (_, none) => false
    | (whole, some behind) =>
      let fraction := behind.takeWhile fun c => c.isDigit || c == '_'
      let exponent := behind.drop fraction.length
      if exponent = [] then
        isPartedRun whole || (whole == [] && isDigitRun fraction && body == t)
      else
        isExponent exponent && (isDigitRun whole || (whole == [] && isDigitRun fraction && body == t))

/-- The texts that are no value. -/
def nullWords : List Text :=
  ["", "~", "null", "Null", "NULL"].map String.toList

/-- The words for true and false, in small letters. -/
def boolWords : List (Text × Bool) :=
  [("yes".toList, true), ("no".toList, false), ("true".toList, true), ("false".toList, false),
   ("on".toList, true), ("off".toList, false)]

/-- Whether a word is in small letters, in capitals, or in small letters after a capital. -/
def hasUsualCase (t : Text) : Bool :=
  let lower := t.map Char.toLower
  t == lower || t == lower.map Char.toUpper || t == (lower.take 1).map Char.toUpper ++ lower.drop 1

/-- Whether an unquoted scalar is true or false. -/
def isBool (t : Text) : Bool :=
  hasUsualCase t && (boolWords.lookup (t.map Char.toLower)).isSome

/-- The indicators that no unquoted scalar starts with. -/
def indicatorWords : List Text :=
  ["!", "&", "*"].map String.toList

/-- The kind of a scalar by its text alone. -/
def Kind.ofText (t : Text) : Kind :=
  if isBool t then .bool
  else if isFloat t then .float
  else if isInt t then .int
  else if t == "<<".toList then .merge
  else if nullWords.contains t then .null
  else if Timestamp.isSpelledBy t then .timestamp
  else if t == "=".toList then .content
  else if indicatorWords.contains t then .unknown
  else .string

/-- The value of a character as a digit; letters go on from ten. -/
def digitValue? (c : Char) : Option Nat :=
  if 'a' ≤ c ∧ c ≤ 'z' then some (c.toNat - 'a'.toNat + 10)
  else if 'A' ≤ c ∧ c ≤ 'Z' then some (c.toNat - 'A'.toNat + 10)
  else decimalValue? c

/-- The number that digits in a base spell; none if another character occurs or if there is no digit. -/
def digits? (base : Nat) (t : Text) : Option Nat :=
  if t = [] then none
  else t.foldlM (fun n c =>
    match digitValue? c with
    | some value => if value < base then some (base * n + value) else none
    | none => none) 0

/-- The letter of a base in front of its digits. -/
def baseLetter? : Nat → Option Char
  | 2 => some 'b'
  | 8 => some 'o'
  | 16 => some 'x'
  | _ => none

/-- The digits of a number after the mark of its base, if it has one. -/
def afterBaseMark (base : Nat) : Text → Text
  | '0' :: letter :: rest =>
    if baseLetter? base = some letter.toLower then rest else '0' :: letter :: rest
  | t => t

/-- A whole number in a base, with blanks around it and a sign. -/
def readInteger (base : Nat) (t : Text) : Except YamlError Int :=
  let (isNegative, body) := splitSign (Text.trim t)
  let digits := afterBaseMark base body
  match digits? base digits with
  | none => .error (.notInteger base t)
  | some n =>
    if base = 10 ∧ YamlError.digitLimit < digits.length then .error (.longInteger digits.length)
    else .ok (if isNegative then -(n : Int) else n)

/-- A whole number without its sign and underscores. Parts with colons between them are to the base
sixty. -/
def readMagnitude : Text → Except YamlError Int
  | [] => .error .emptyNumber
  | ['0'] => .ok 0
  | '0' :: 'b' :: digits => readInteger 2 digits
  | '0' :: 'x' :: digits => readInteger 16 digits
  | '0' :: digits => readInteger 8 ('0' :: digits)
  | t => do
    let parts ← (Text.split ':' t).mapM (readInteger 10)
    return parts.foldl (fun n part => 60 * n + part) 0

/-- A whole number. Underscores mean nothing. -/
def readInt (t : Text) : Except YamlError Int := do
  let t := t.filter (· != '_')
  if t = [] then throw .emptyNumber
  let (isNegative, body) := splitSign t
  let n ← readMagnitude body
  return if isNegative then -n else n

/-- A number in decimal notation, with blanks around it and a sign. -/
def readDecimal (t : Text) : Except YamlError Binary64 :=
  let (isNegative, body) := splitSign (Text.trim t)
  if ["inf".toList, "infinity".toList].contains body then .ok (.infinity isNegative)
  else if body = "nan".toList then .ok .nan
  else match body with
    | '-' :: _ => .error (.notFloat t)
    | _ =>
      match NumberLiteral.ofText? body with
      | some literal => .ok { literal with negative := isNegative }.toBinary64
      | none => .error (.notFloat t)

/-- The sum of parts to the base sixty, from the last part on, each step rounded. -/
def sexagesimalSum (parts : List Binary64) : Except YamlError Binary64 := do
  let (sum, _) ← parts.reverse.foldlM (fun (sum, factor) part =>
    match Binary64.ofRatio false factor 1 with
    | .finite negative significand exponent =>
      pure (sum.add (part.mul (.finite negative significand exponent)), 60 * factor)
    | _ => .error YamlError.hugeFactor) (Binary64.zero false, 1)
  return sum

/-- A number with a point. Underscores mean nothing. -/
def readFloat (t : Text) : Except YamlError Binary64 := do
  let t := (t.filter (· != '_')).map Char.toLower
  if t = [] then throw .emptyNumber
  let (isNegative, body) := splitSign t
  if body = ".inf".toList then return .infinity isNegative
  else if body = ".nan".toList then return .nan
  else
    let value ← match Text.split ':' body with
      | [whole] => readDecimal whole
      | parts => do sexagesimalSum (← parts.mapM readDecimal)
    return if isNegative then value.neg else value

/-- The value of a scalar of a kind. A scalar of the kind of a collection has no value here: it is
refused where collections are filled. -/
def ofScalar (kind : Kind) (t : Text) : Except YamlError Yaml :=
  match kind with
  | .null => .ok null
  | .bool =>
    match boolWords.lookup (t.map Char.toLower) with
    | some value => .ok (bool value)
    | none => .error (.notBool (t.map Char.toLower))
  | .int => (readInt t).map int
  | .float => (readFloat t).map float
  | .string => .ok (string t)
  | .binary =>
    match Base64.decode? t with
    | some octets => .ok (binary octets)
    | none => .error .malformed
  | .timestamp =>
    match Timestamp.ofText? t with
    | none => .error .notTimestamp
    | some timestamp =>
      match timestamp.error? with
      | some error => .error error
      | none => .ok (if timestamp.time?.isSome then dateTime else date)
  | .sequence | .mapping | .set | .orderedMapping | .pairs | .merge | .content | .unknown =>
    .error .malformed

end ViewMarkup.Yaml
