import ViewMarkup.Json.Basic
import ViewMarkup.Numeral.Shortest

namespace ViewMarkup

/-- The choices that a JSON text leaves open. -/
structure JsonStyle where
  /-- Characters that may stand in a string as they are, apart from quotes, backslashes and controls. -/
  plain : Char → Bool
  /-- The text of a floating-point number. -/
  number : Binary64 → Text

namespace JsonStyle

/-- Numbers have the fewest digits that read back, positional from 0.0001 up to sixteen digits before
the point, and an exponent with a sign and at least two digits otherwise. -/
def numberLayout : DecimalLayout where
  pointAbove := -4
  pointUpTo := 16
  exponentPlus := "+"
  exponentWidth := 2
  undefined := "NaN"
  infinite := "Infinity"

/-- Every character beyond ASCII stands as it is. -/
def unicode : JsonStyle where
  plain _ := true
  number := numberLayout.write

/-- Only ASCII characters are used; the delete character is escaped like those beyond. -/
def ascii : JsonStyle where
  plain c := c.toNat < 0x7f
  number := numberLayout.write

end JsonStyle

namespace Json

/-- The escape of one sixteen-bit unit. -/
def unitEscape (n : Nat) : Text :=
  "\\u" ++ Text.hex 4 n

/-- The escape of a character: a pair of units beyond the sixteen-bit range. -/
def unicodeEscape (c : Char) : Text :=
  let n := c.toNat
  if n < 0x10000 then unitEscape n
  else unitEscape (0xd800 + (n - 0x10000) / 0x400) ++ unitEscape (0xdc00 + (n - 0x10000) % 0x400)

/-- A character inside a string. -/
def writeChar (style : JsonStyle) (c : Char) : Text :=
  if c = '"' then "\\\""
  else if c = '\\' then "\\\\"
  else if c = '\n' then "\\n"
  else if c = '\r' then "\\r"
  else if c = '\t' then "\\t"
  else if c = '\x08' then "\\b"
  else if c = '\x0c' then "\\f"
  else if c.toNat < 0x20 || !style.plain c then unicodeEscape c
  else [c]

/-- A string in double quotes. -/
def writeString (style : JsonStyle) (t : Text) : Text :=
  "\"" ++ t.flatMap (writeChar style) ++ "\""

/-- A value that holds no other value. -/
def writeScalar (style : JsonStyle) : Json → Text
  | null => "null"
  | bool true => "true"
  | bool false => "false"
  | int n => Text.ofInt n
  | float x => style.number x
  | string t => writeString style t
  | array _ => "[]"
  | object _ => "\x7b\x7d"

mutual

/-- A value on one line, with a blank after each comma and colon. -/
def write (style : JsonStyle) : Json → Text
  | array (item :: items) => "[" ++ write style item ++ writeItems style items ++ "]"
  | object ((name, value) :: members) =>
    "\x7b" ++ writeString style name ++ ": " ++ write style value ++ writeMembers style members ++ "\x7d"
  | scalar => writeScalar style scalar

/-- The items after the first. -/
def writeItems (style : JsonStyle) : List Json → Text
  | [] => []
  | item :: items => ", " ++ write style item ++ writeItems style items

/-- The members after the first. -/
def writeMembers (style : JsonStyle) : List (Text × Json) → Text
  | [] => []
  | (name, value) :: members =>
    ", " ++ writeString style name ++ ": " ++ write style value ++ writeMembers style members

end

/-- A line break and the indentation of a level. -/
def lineBreak (level : Nat) : Text :=
  '\n' :: List.replicate (2 * level) ' '

mutual

/-- A value over several lines, each item and member on a line of its own. -/
def writeIndented (style : JsonStyle) (level : Nat) : Json → Text
  | array (item :: items) =>
    "[" ++ lineBreak (level + 1) ++ writeIndented style (level + 1) item ++
      writeIndentedItems style level items ++ lineBreak level ++ "]"
  | object ((name, value) :: members) =>
    "\x7b" ++ lineBreak (level + 1) ++ writeString style name ++ ": " ++
      writeIndented style (level + 1) value ++ writeIndentedMembers style level members ++
      lineBreak level ++ "\x7d"
  | scalar => writeScalar style scalar

/-- The items after the first, one level deeper. -/
def writeIndentedItems (style : JsonStyle) (level : Nat) : List Json → Text
  | [] => []
  | item :: items =>
    "," ++ lineBreak (level + 1) ++ writeIndented style (level + 1) item ++
      writeIndentedItems style level items

/-- The members after the first, one level deeper. -/
def writeIndentedMembers (style : JsonStyle) (level : Nat) : List (Text × Json) → Text
  | [] => []
  | (name, value) :: members =>
    "," ++ lineBreak (level + 1) ++ writeString style name ++ ": " ++
      writeIndented style (level + 1) value ++ writeIndentedMembers style level members

end

end Json

end ViewMarkup
