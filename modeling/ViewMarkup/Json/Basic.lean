import ViewMarkup.Fields
import ViewMarkup.Numeral.Binary64

namespace ViewMarkup

/-- A JSON value. Integers are exact and apart from floating-point numbers. -/
inductive Json where
  | null
  | bool (value : Bool)
  | int (value : Int)
  | float (value : Binary64)
  | string (value : Text)
  | array (items : List Json)
  | object (members : List (Text × Json))
  deriving Repr

instance : Inhabited Json := ⟨.null⟩

/-- A member of an object. -/
def Json.member (name : Text) (value : Json) : Text × Json := (name, value)

end ViewMarkup
