import ViewMarkup.Numeral.Literal
import ViewMarkup.Value.Braced

namespace ViewMarkup

/-- The text between two equal quotes. -/
def unquoted? : Text → Option Text
  | [] => none
  | quote :: rest =>
    if (quote = '"' ∨ quote = '\'') ∧ rest.getLast? = some quote then some rest.dropLast else none

/-- The number of a literal. It is read as a double; written without point and exponent it stands for
the integer that the double is equal to. -/
def NumberLiteral.toJson (literal : NumberLiteral) : Json :=
  match literal.isWhole, literal.toBinary64.toInt? with
  | true, some n => .int n
  | _, _ => .float literal.toBinary64

/-- Reads the value of a property. -/
def Value.property (t : Text) : Value :=
  match braced? t, unquoted? t with
  | some raw, _ => .expression raw
  | none, some inner => .literal (.string inner)
  | none, none =>
    if t = "true".toList then .literal (.bool true)
    else if t = "false".toList then .literal (.bool false)
    else match NumberLiteral.ofText? t with
      | some number => .literal number.toJson
      | none => .literal (.string t)

end ViewMarkup
