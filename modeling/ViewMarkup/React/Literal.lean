import ViewMarkup.Text.Case
import ViewMarkup.Value.Declared

namespace ViewMarkup.React

/-- The name of the function that sets a state variable. -/
def setterName (name : Text) : Text :=
  "set" ++ Text.capitalize name

/-- A character between tags; braces and angle brackets have a meaning of their own there. -/
def escapeChar (c : Char) : Text :=
  if c = '\x7b' then "\x7b\"\x7b\"\x7d"
  else if c = '\x7d' then "\x7b\"\x7d\"\x7d"
  else if c = '<' then "&lt;"
  else if c = '>' then "&gt;"
  else [c]

/-- Text between tags. -/
def escapeText (t : Text) : Text :=
  t.flatMap escapeChar

/-- An expression between tags or as the value of an attribute. -/
def inBraces (raw : Text) : Text :=
  "\x7b" ++ raw ++ "\x7d"

/-- A style property with its hyphens replaced by capitals. -/
def camelCase (name : Text) : Text :=
  match Text.split '-' (Text.trim name) with
  | [] => []
  | head :: parts => head ++ (parts.map Text.capitalize).flatten

/-- One declaration of a style, if it has a name, a colon and a value. -/
def styleEntry? (declaration : Text) : Option Text :=
  match Text.cut ':' declaration with
  | (name, some value) =>
    if Text.trim name = [] ∨ Text.trim value = [] then none
    else some (camelCase name ++ ": " ++ Json.writeString .ascii (Text.trim value))
  | (_, none) => none

/-- A style text as an object literal in braces. -/
def styleObject (css : Text) : Text :=
  match (Text.split ';' css).filterMap styleEntry? with
  | [] => "\x7b\x7b\x7d\x7d"
  | entries => "\x7b\x7b " ++ Text.join ", " entries ++ " \x7d\x7d"

/-- The state of a fetch before its answer: a type argument perhaps, and the initial value. -/
structure InitialState where
  type? : Option Text
  initial : Text
  deriving DecidableEq, Repr

/-- The initial state for the seed of a fetch. A type ending in `[]` starts as an empty list, a
literal as itself, any other type as `null`; without seed there is no type. -/
def InitialState.ofSeed (seed : Text) : Except JsonError InitialState :=
  let seed := Text.trim seed
  if seed = [] then .ok ⟨none, "null"⟩
  else if (Text.before? "[]" seed).isSome then .ok ⟨some seed, "[]"⟩
  else match Json.read (Text.replaceChar '\'' '"' seed) with
    | .ok _ => .ok ⟨none, seed⟩
    | .error (.integerTooLong digits) => .error (.integerTooLong digits)
    | .error _ => .ok ⟨some (seed ++ " | null"), "null"⟩

end ViewMarkup.React
