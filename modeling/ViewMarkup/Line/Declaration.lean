import ViewMarkup.Line.Basic
import ViewMarkup.Text.Scan
import ViewMarkup.Value.Declared

namespace ViewMarkup

/-- Reads a remark. -/
def SourceLine.comment? (line : SourceLine) : Option Reading :=
  (Text.after? "//" line.trimmed).map fun text => .ofNode (.leaf (.comment (Text.trim text)))

/-- What is declared: a constant or a state variable. -/
inductive DeclarationKind where
  | data
  | state
  deriving DecidableEq, Repr

namespace DeclarationKind

/-- The word after the colon. -/
def keyword : DeclarationKind → Text
  | data => "data"
  | state => "state"

/-- The fault of a declaration whose value cannot be read. -/
def invalidValue : DeclarationKind → DiagnosticCode
  | data => .invalidDataValue
  | state => .invalidStateValue

/-- The content that declares a value under a name. -/
def content : DeclarationKind → Text → Value → Content
  | data => .data
  | state => .state

/-- The rest of a line that starts with the keyword and a blank. -/
def rest? (kind : DeclarationKind) (t : Text) : Option Text :=
  Text.after? (':' :: kind.keyword) t >>= Text.afterBlanks?

end DeclarationKind

/-- A declaration: its kind, its name and the text of its value. -/
structure DeclarationParts where
  kind : DeclarationKind
  name : Text
  value : Text
  deriving DecidableEq, Repr

/-- The parts of a trimmed line that is a declaration. -/
def DeclarationParts.ofText? (t : Text) : Option DeclarationParts := do
  let (kind, rest) ←
    ((DeclarationKind.data.rest? t).map fun rest => (.data, rest)) <|>
      ((DeclarationKind.state.rest? t).map fun rest => (.state, rest))
  let (name, rest) ← Text.word? rest
  let rest ← Text.after? "=" (Text.trimStart rest)
  let value ← Text.oneLine? (Text.trimStart rest)
  return ⟨kind, name, value⟩

/-- Reads a declaration. A value that cannot be read is reported, and the line is dropped. -/
def SourceLine.declaration? (line : SourceLine) : Option Reading :=
  (DeclarationParts.ofText? line.trimmed).map fun parts =>
    match Value.declared parts.value with
    | .ok value => .ofNode (.leaf (parts.kind.content parts.name value))
    | .error error =>
      let start := line.indent + (line.trimmed.length - parts.value.length)
      .dropped (.error parts.kind.invalidValue
        ("Invalid value for :" ++ parts.kind.keyword ++ " " ++ parts.name ++ ": " ++ error.message)
        line.number start (start + parts.value.length))

end ViewMarkup
