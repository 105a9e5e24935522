import ViewMarkup.Text.Basic

namespace ViewMarkup

/-- Values under distinct names, in order. -/
abbrev Fields (α : Type) := List (Text × α)

namespace Fields

variable {α : Type}

/-- Sets a field. A new name comes last; a name already there keeps its place. -/
def put (name : Text) (value : α) : Fields α → Fields α
  | [] => [(name, value)]
  | (n, v) :: fields => if n = name then (n, value) :: fields else (n, v) :: put name value fields

/-- Fields from pairs; of two pairs with one name the first gives the place, the last the value. -/
def ofPairs (pairs : List (Text × α)) : Fields α :=
  pairs.foldl (fun fields pair => put pair.1 pair.2 fields) []

end Fields

end ViewMarkup
