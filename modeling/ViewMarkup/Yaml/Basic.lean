import ViewMarkup.Json.Basic

namespace ViewMarkup

/-- A YAML value. Dates are kept apart from texts but not looked into. -/
inductive Yaml where
  | null
  | bool (value : Bool)
  | int (value : Int)
  | float (value : Binary64)
  | string (value : Text)
  | binary (octets : List UInt8)
  | date
  | dateTime
  | sequence (items : List Yaml)
  | mapping (entries : List (Yaml × Yaml))
  | set (items : List Yaml)
  /-- An entry of a sequence of pairs. -/
  | pair (key value : Yaml)
  deriving Repr

namespace Yaml

instance : Inhabited Yaml := ⟨.null⟩

mutual

/-- A JSON value as a YAML value. -/
def ofJson : Json → Yaml
  | .null => null
  | .bool value => bool value
  | .int value => int value
  | .float value => float value
  | .string value => string value
  | .array items => sequence (ofItems items)
  | .object members => mapping (ofMembers members)

/-- The items of a JSON array. -/
def ofItems : List Json → List Yaml
  | [] => []
  | item :: items => ofJson item :: ofItems items

/-- The members of a JSON object. -/
def ofMembers : List (Text × Json) → List (Yaml × Yaml)
  | [] => []
  | (name, value) :: members => (string name, ofJson value) :: ofMembers members

end

/-- The name of the type of a value in messages. -/
def typeName : Yaml → Text
  | null => "NoneType"
  | bool _ => "bool"
  | int _ => "int"
  | float _ => "float"
  | string _ => "str"
  | binary _ => "bytes"
  | date => "date"
  | dateTime => "datetime"
  | sequence _ => "list"
  | mapping _ => "dict"
  | set _ => "set"
  | pair _ _ => "tuple"

/-- The name of the type of a value together with where it comes from. -/
def qualifiedTypeName : Yaml → Text
  | date => "datetime.date"
  | dateTime => "datetime.datetime"
  | value => value.typeName

/-- Values that count as nothing at the top of a document. -/
def isVacant : Yaml → Bool
  | null | bool false | string [] | binary [] | sequence [] | mapping [] | set [] => true
  | int value => value == 0
  | float (.finite _ significand _) => significand == 0
  | _ => false

end Yaml

end ViewMarkup
