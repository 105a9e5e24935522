import ViewMarkup.Settings.Basic
import ViewMarkup.Text.Scan
import ViewMarkup.Text.Utf8
import ViewMarkup.Yaml.Basic

namespace ViewMarkup.Settings

/-- A text, which octets may spell too. -/
def text : Yaml → Except Refusal Text
  | .string value => .ok value
  | .binary octets => (Utf8.decode octets).mapError fun _ => .notUnicode
  | _ => .error .notText

/-- A text that spells one of some values. -/
def choice {α : Type} (ofText? : Text → Option α) (value : Yaml) : Except Refusal α :=
  match text value with
  | .error refusal => .error refusal
  | .ok t => match ofText? t with
    | some found => .ok found
    | none => .error .pattern

/-- The level of the log by name. -/
def level? (t : Text) : Option LogLevel :=
  [LogLevel.debug, .info, .warning, .error, .critical].find? fun level => level.name == t

/-- The level of the log by name; a text may be in any case, octets may not. -/
def level : Yaml → Except Refusal LogLevel
  | .string t => choice level? (.string (Text.upper t))
  | value => choice level? value

/-- A suffix with its dot. -/
def dotted : Text → Text
  | '.' :: rest => '.' :: rest
  | t => '.' :: t

/-- Suffixes in one text, with commas between them. -/
def suffixesOfText (t : Text) : List Text :=
  (((Text.split ',' t).map Text.trim).filter (· ≠ [])).map dotted

/-- Suffixes in a list, or the errors in it with the positions of the items they are about. -/
def collect : Nat → List (Except Refusal Text) → Except (List Issue) (List Text)
  | _, [] => .ok []
  | position, suffix :: suffixes =>
    match suffix, collect (position + 1) suffixes with
    | .ok suffix, .ok suffixes => .ok (suffix :: suffixes)
    | .ok _, .error issues => .error issues
    | .error refusal, .ok _ => .error [⟨.sourceSuffixes, refusal, some position⟩]
    | .error refusal, .error issues => .error (⟨.sourceSuffixes, refusal, some position⟩ :: issues)

/-- A suffix in a sequence, which gets its dot unless it is no text at all. -/
def suffix : Yaml → Except ConfigurationError Text
  | .string t => .ok (dotted t)
  | .binary _ => .error .suffixBinary
  | item => .error (.suffixNotText item.qualifiedTypeName)

/-- The suffixes of the sources: a text, a sequence of texts, or a set of texts, which are taken as they
are. A sequence with something else in it is an error, and everything else is refused. -/
def suffixes : Yaml → Except ConfigurationError (Except (List Issue) (List Text))
  | .string t => .ok (.ok (suffixesOfText t))
  | .sequence items => (items.mapM suffix).map .ok
  | .set items => .ok (collect 0 (items.map text))
  | _ => .ok (.error [⟨.sourceSuffixes, .notList, none⟩])

/-- The leading zeros of a number are left out, with underscores between them. The last character stays if
there is nothing else, and so does the one before a point. -/
def dropZeros (previous : Char) : Text → Option Text
  | [] => some [previous]
  | c :: rest =>
    if c = '0' ∨ c = '_' then dropZeros c rest
    else if '1' ≤ c ∧ c ≤ '9' then some (c :: rest)
    else if c = '.' then some (previous :: c :: rest)
    else none

/-- A point with nothing but zeros after it is left out. -/
def dropFraction (t : Text) : Text :=
  match Text.cut '.' t with
  | (whole, some fraction) => if fraction.all (· == '0') then whole else t
  | (_, none) => t

/-- Underscores are left out if each stands alone between other characters. -/
def dropUnderscores (t : Text) : Option Text :=
  if (Text.split '_' t).contains [] then none else some (t.filter (· != '_'))

/-- Blanks that may stand around a number: the separators among the control characters may not. -/
def isMargin (c : Char) : Bool :=
  isBlank c && !(0x1c ≤ c.toNat && c.toNat ≤ 0x1f)

/-- A whole number without its sign: leading zeros, underscores between digits and a fraction of zeros
mean nothing. What is left has at most as many digits as are read. -/
def magnitude (t : Text) : Except Refusal Nat :=
  let digits? := do
    let t ← match t with
      | '0' :: rest => dropZeros '0' rest
      | c :: rest => if '1' ≤ c ∧ c ≤ '9' then some (c :: rest) else none
      | [] => none
    dropUnderscores (dropFraction t)
  match digits? with
  | none => .error .unreadableNumber
  | some digits =>
    if digits = [] ∨ !digits.all Char.isDigit then .error .unreadableNumber
    else if YamlError.digitLimit < digits.length then .error .numberTooLong
    else .ok (digitsValue digits)

/-- A whole number in a text, with blanks around it and a sign. -/
def wholeNumber (t : Text) : Except Refusal Int :=
  match ((t.dropWhile isMargin).reverse.dropWhile isMargin).reverse with
  | '-' :: digits => (magnitude digits).map fun n => -(n : Int)
  | '+' :: digits => (magnitude digits).map Int.ofNat
  | digits => (magnitude digits).map Int.ofNat

/-- Whether a number has 64 bits. -/
def isWord (n : Int) : Bool :=
  -(Nat.pow 2 63 : Nat) ≤ n && n < (Nat.pow 2 63 : Nat)

/-- A whole number. -/
def number : Yaml → Except Refusal Int
  | .bool value => .ok (if value then 1 else 0)
  | .int value => .ok value
  | .float .nan | .float (.infinity _) => .error .notFinite
  | .float value =>
    match value.toInt? with
    | none => .error .fraction
    | some n => if n.natAbs < Nat.pow 2 63 then .ok n else .error .numberTooLong
  | .string t => wholeNumber t
  | .binary octets =>
    match Utf8.decode octets with
    | .ok t => wholeNumber t
    | .error _ => .error .unreadableNumber
  | _ => .error .notNumber

/-- A number of columns, which is at least one. -/
def width (value : Yaml) : Except Refusal { n : Nat // 0 < n } :=
  match number value with
  | .error refusal => .error refusal
  | .ok n => if h : 0 < n.toNat then .ok ⟨n.toNat, h⟩ else .error .tooSmall

/-- The words for true and false, in any case. -/
def booleanWords : List (Text × Bool) :=
  ["1", "on", "t", "true", "y", "yes"].map (fun word => (word.toList, true)) ++
    ["0", "off", "f", "false", "n", "no"].map (fun word => (word.toList, false))

/-- A boolean in a text. -/
def booleanWord (t : Text) : Except Refusal Bool :=
  match booleanWords.lookup (t.map Char.toLower) with
  | some value => .ok value
  | none => .error .unreadableBoolean

/-- A boolean as a number. Only a number of 64 bits is looked at. -/
def booleanNumber (n : Int) : Except Refusal Bool :=
  if n = 0 then .ok false
  else if n = 1 then .ok true
  else if isWord n then .error .unreadableBoolean
  else .error .notBoolean

/-- A boolean. -/
def boolean : Yaml → Except Refusal Bool
  | .bool value => .ok value
  | .int value => booleanNumber value
  | .float value =>
    match value.toInt? with
    | none => .error .notBoolean
    | some n => if n.natAbs < Nat.pow 2 63 then booleanNumber n else .error .notBoolean
  | .string t => booleanWord t
  | .binary octets =>
    match Utf8.decode octets with
    | .ok t => booleanWord t
    | .error _ => .error .unreadableBoolean
  | _ => .error .notBoolean

end ViewMarkup.Settings
