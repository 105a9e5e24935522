import ViewMarkup.Line.Basic
import ViewMarkup.Property.Token
import ViewMarkup.Property.Value
import ViewMarkup.Text.Scan

namespace ViewMarkup

/-- The name after the colon of a trimmed line, and the text of the props, which may be empty. -/
def componentParts? (t : Text) : Option (Text × Text) := do
  let rest ← Text.after? ":" t
  let (name, rest) ← Text.name? rest
  if rest = [] then return (name, [])
  let props ← Text.afterBlanks? rest
  if Text.isOneLine props then return (name, props) else none

/-- The key and the value of a token, if both sides of an equals sign are there. -/
def PropertyToken.property? (token : PropertyToken) : Option (Text × Value) :=
  match Text.cut '=' token.text with
  | (key, some value) =>
    if Text.trim key = [] ∨ Text.trim value = [] then none
    else some (Text.trim key, Value.property (Text.trim value))
  | (_, none) => none

/-- Reads a component. A malformed property is reported and left out. -/
def SourceLine.component? (line : SourceLine) : Option Reading :=
  (componentParts? line.trimmed).map fun (name, props) =>
    let column := line.indent + (line.trimmed.length - props.length)
    let tokens := PropertyToken.tokens column props
    { node? := some (.leaf (.component name (Fields.ofPairs (tokens.filterMap (·.property?)))))
      diagnostics := (tokens.filter (·.property?.isNone)).map fun token =>
        .error .invalidProperty ("Invalid property: " ++ token.text) line.number token.start token.stop
      log := [] }

end ViewMarkup
