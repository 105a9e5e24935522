import ViewMarkup.Value.Basic

namespace ViewMarkup

/-- The text inside the braces of a span at the start, and what follows the span. Nested or empty braces are
ordinary text. -/
def spanAt? : Text → Option (Text × Text)
  | '\x7b' :: rest =>
    match rest.takeWhile (fun c => c != '\x7b' && c != '\x7d') with
    | [] => none
    | body =>
      match rest.drop body.length with
      | '\x7d' :: after => some (body, after)
      | _ => none
  | _ => none

/-- The trimmed text inside the first span. -/
def firstSpan? : Text → Option Text
  | [] => none
  | c :: rest =>
    match spanAt? (c :: rest) with
    | some (body, _) => some (Text.trim body)
    | none => firstSpan? rest

/-- The trimmed text inside the braces, if the text is exactly one span. -/
def braced? (t : Text) : Option Text :=
  match spanAt? t with
  | some (body, after) => if Text.atLineEnd after then some (Text.trim body) else none
  | none => none

/-- An expression if the text is exactly one span, otherwise the text as it is. -/
def Inline.ofText (t : Text) : Inline :=
  match braced? t with
  | some raw => .expression raw
  | none => .text t

end ViewMarkup
