import ViewMarkup.Yaml.Place

namespace ViewMarkup.Yaml

/-- The characters that bound the parts of a flow collection. -/
def isFlowMark (c : Char) : Bool :=
  c == ',' || c == '[' || c == ']' || c == '\x7b' || c == '\x7d'

/-- The characters with a meaning of their own at the start of a node. -/
def indicators : List Char :=
  "-?:,[]\x7b\x7d#&*!|>'\"%@`".toList

/-- Whether an unquoted scalar may start here. A hyphen, a question mark and a colon need something right
behind them, and only the hyphen may start one in a flow collection. -/
def startsPlain (inFlow : Bool) : Text → Bool
  | [] => false
  | c :: rest =>
    !(isGap c || isBreak c || indicators.contains c) ||
      (!startsGap rest && (c == '-' || (!inFlow && (c == '?' || c == ':'))))

/-- Whether a colon ends a key, seen from what follows it. -/
def endsKey (inFlow : Bool) (rest : Text) : Bool :=
  startsGap rest || (inFlow && rest.head?.any isFlowMark)

/-- The characters of an unquoted scalar up to the next blank or the end of the scalar. -/
def plainRun (inFlow : Bool) : Text → Text
  | [] => []
  | c :: rest =>
    if isGap c || isBreak c || (c == ':' && endsKey inFlow rest) ||
        (inFlow && (isFlowMark c || c == '?')) then []
    else c :: plainRun inFlow rest

/-- An unquoted scalar: its text, the place after it and after the blanks behind it, and whether this
place is on a line of its own. -/
structure PlainScalar where
  text : Text
  after : Place
  isFresh : Bool

/-- An unquoted scalar over one or more lines. In a block, the lines after the first are at `least`
columns or more. The text so far and the blanks behind it come in order; the first number bounds the
length. -/
def plainFrom (inFlow : Bool) (least : Nat) : Nat → PlainScalar → Text → PlainScalar
  | 0, sofar, _ => sofar
  | fuel + 1, sofar, spaces =>
    let place := sofar.after
    match if place.rest.head? = some '#' then [] else plainRun inFlow place.rest with
    | [] => sofar
    | run =>
      let text := sofar.text ++ spaces ++ run
      let place := place.advance run.length
      let next := place.skipWhile (· == ' ')
      match next.rest with
      | [] => ⟨text, next, false⟩
      | c :: rest =>
        let (spaces, found) :=
          if isBreak c then
            let (breaks, after) := next.step.emptyLines (· == ' ') (rest.length + 1)
            if after.isAtMarker then ([], ⟨text, after, true⟩)
            else (folded c breaks, ⟨text, after, true⟩)
          else (place.rest.takeWhile (· == ' '), (⟨text, next, false⟩ : PlainScalar))
        if spaces = [] ∨ found.after.rest.head? = some '#' ∨ (!inFlow ∧ found.after.column < least) then
          found
        else plainFrom inFlow least fuel found spaces

/-- The unquoted scalar at a place. -/
def plainScalar (inFlow : Bool) (least : Nat) (place : Place) : PlainScalar :=
  plainFrom inFlow least (place.rest.length + 1) ⟨[], place, false⟩ []

end ViewMarkup.Yaml
