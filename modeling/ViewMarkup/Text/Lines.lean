import ViewMarkup.Text.Basic

namespace ViewMarkup.Text

/-- The text with every carriage return and line feed pair folded to a line feed. -/
def foldPairs : Text → Text
  | [] => []
  | '\r' :: '\n' :: rest => '\n' :: foldPairs rest
  | c :: rest => c :: foldPairs rest

/-- The text without its trailing carriage returns. -/
def dropReturns (t : Text) : Text :=
  (t.reverse.dropWhile (· == '\r')).reverse

/-- The lines of a text; there is always at least one. -/
def lines (t : Text) : List Text :=
  (split '\n' (foldPairs t)).map dropReturns

/-- The text with every kind of line end, also a lone carriage return, made a line feed. -/
def foldNewlines : Text → Text
  | [] => []
  | '\r' :: '\n' :: rest => '\n' :: foldNewlines rest
  | c :: rest => (if c = '\r' then '\n' else c) :: foldNewlines rest

end ViewMarkup.Text
