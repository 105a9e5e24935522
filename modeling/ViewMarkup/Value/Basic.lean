import ViewMarkup.Json.Writer

namespace ViewMarkup

/-- Text as it is shown, or an expression that gives it. -/
inductive Inline where
  | expression (raw : Text)
  | text (value : Text)
  deriving DecidableEq, Repr

/-- A literal, or an expression that gives it. -/
inductive Value where
  | expression (raw : Text)
  | literal (value : Json)
  deriving Repr

/-- The value as an expression of the generated script. -/
def Value.script : Value → Text
  | expression raw => raw
  | literal value => Json.write .unicode value

end ViewMarkup
