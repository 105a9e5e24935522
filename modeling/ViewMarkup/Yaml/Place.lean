import ViewMarkup.Text.Basic

namespace ViewMarkup.Yaml

/-- The characters that end a line. -/
def isBreak (c : Char) : Bool :=
  c == '\n' || c == '\x85' || c == '\u2028' || c == '\u2029'

/-- The end of a line as a scalar holds it. -/
def breakChar (c : Char) : Char :=
  if c = '\x85' then '\n' else c

/-- Blanks within a line. -/
def isGap (c : Char) : Bool :=
  c == ' ' || c == '\t'

/-- Whether a blank or the end of the line comes next. -/
def startsGap : Text → Bool
  | [] => true
  | c :: _ => isGap c || isBreak c

/-- Whether a space or the end of the line comes next. -/
def startsSpace : Text → Bool
  | [] => true
  | c :: _ => c == ' ' || isBreak c

/-- Whether the end of the line comes next. -/
def startsBreak : Text → Bool
  | [] => true
  | c :: _ => isBreak c

/-- A place in a text: what is left, and the number of characters, of lines, and of columns in the line
before it. -/
structure Place where
  rest : Text
  index : Nat
  line : Nat
  column : Nat
  deriving DecidableEq, Repr

namespace Place

/-- The start of a text. -/
def start (t : Text) : Place :=
  ⟨t, 0, 0, 0⟩

/-- The place after the next character. A byte order mark takes no column. -/
def step (place : Place) : Place :=
  match place.rest with
  | [] => place
  | c :: rest =>
    if isBreak c then ⟨rest, place.index + 1, place.line + 1, 0⟩
    else if c = '\ufeff' then ⟨rest, place.index + 1, place.line, place.column⟩
    else ⟨rest, place.index + 1, place.line, place.column + 1⟩

/-- The place after some characters. -/
def advance (place : Place) : Nat → Place
  | 0 => place
  | n + 1 => place.step.advance n

/-- The place after the characters that have a property. -/
def skipWhile (place : Place) (p : Char → Bool) : Place :=
  place.advance (place.rest.takeWhile p).length

/-- Whether a marker stands alone at the start of a line. -/
def isAt (place : Place) (marker : Text) : Bool :=
  place.column == 0 && ((Text.after? marker place.rest).any startsGap)

/-- Whether a document ends or starts at a place. -/
def isAtMarker (place : Place) : Bool :=
  place.isAt "---" || place.isAt "..."

/-- The place after the rest of a line that holds nothing but a comment; none if it holds more. -/
def afterLine? (place : Place) : Option Place :=
  let place := place.skipWhile (· == ' ')
  let place := match place.rest with
    | '#' :: _ => place.skipWhile fun c => !isBreak c
    | _ => place
  if startsBreak place.rest then some place.step else none

/-- From the start of a line, the ends of the lines that hold blanks only, and the place where these
lines are over. The first argument bounds the number of lines. -/
def emptyLines (isSkipped : Char → Bool) : Nat → Place → Text × Place
  | 0, place => ([], place)
  | fuel + 1, place =>
    if place.isAtMarker then ([], place)
    else
      let next := place.skipWhile isSkipped
      match next.rest with
      | [] => ([], next)
      | c :: _ =>
        if isBreak c then
          let (breaks, after) := emptyLines isSkipped fuel next.step
          (breakChar c :: breaks, after)
        else ([], next)

end Place

/-- What the end of a line within a scalar stands for, given the ends of the empty lines after it: a
line feed folds into a blank, or is left out before empty lines. -/
def folded (c : Char) (breaks : Text) : Text :=
  if breakChar c ≠ '\n' then breakChar c :: breaks
  else if breaks = [] then [' '] else breaks

end ViewMarkup.Yaml
