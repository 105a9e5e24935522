import ViewMarkup.Yaml.Error
import ViewMarkup.Yaml.Place
import ViewMarkup.Yaml.Scalar

namespace ViewMarkup.Yaml

/-- The character of an escape without digits. -/
def escape? (c : Char) : Option Char :=
  [('0', '\x00'), ('a', '\x07'), ('b', '\x08'), ('t', '\t'), ('\t', '\t'), ('n', '\n'), ('v', '\x0b'),
   ('f', '\x0c'), ('r', '\r'), ('e', '\x1b'), (' ', ' '), ('"', '"'), ('\\', '\\'), ('/', '/'),
   ('N', '\x85'), ('_', '\xa0'), ('L', '\u2028'), ('P', '\u2029')].lookup c

/-- The number of digits of an escape by code point. -/
def escapeWidth? (c : Char) : Option Nat :=
  [('x', 2), ('u', 4), ('U', 8)].lookup c

/-- The character with a code point. Half of a surrogate pair is none. -/
def ofCodePoint (n : Nat) : Except YamlError Char :=
  if n < 0x110000 then
    if n.isValidChar then .ok (Char.ofNat n) else .error .malformed
  else if n < 0x80000000 then .error .codePoint
  else .error .hugeCodePoint

/-- What an escape stands for, from the place after its backslash. An escaped end of a line stands for
the empty lines after it. -/
def escaped (place : Place) : Except YamlError (Text × Place) :=
  match place.rest with
  | [] => .error .malformed
  | c :: rest =>
    match escape? c, escapeWidth? c with
    | some char, _ => .ok ([char], place.step)
    | none, some width =>
      let digits := rest.take width
      if digits.length < width ∨ !digits.all isHexDigit then .error .malformed
      else (ofCodePoint ((digits? 16 digits).getD 0)).map fun char => ([char], place.advance (width + 1))
    | none, none =>
      if isBreak c then
        let (breaks, after) := place.step.emptyLines isGap (rest.length + 1)
        if after.isAtMarker then .error .malformed else .ok (breaks, after)
      else .error .malformed

/-- The text of a quoted scalar up to its closing quote, and the place after that. Within single quotes, a
quote is written twice and there are no escapes. The text so far comes in reverse; the first number
bounds the length. -/
def quotedFrom (isDouble : Bool) : Nat → Text → Place → Except YamlError (Text × Place)
  | 0, _, _ => .error .malformed
  | fuel + 1, acc, place =>
    let go (more : Text) (after : Place) : Except YamlError (Text × Place) :=
      quotedFrom isDouble fuel (more.reverse ++ acc) after
    match place.rest with
    | [] => .error .malformed
    | c :: rest =>
      if isDouble ∧ c = '"' then .ok (acc.reverse, place.step)
      else if !isDouble ∧ c = '\'' then
        if rest.head? = some '\'' then go ['\''] (place.advance 2)
        else .ok (acc.reverse, place.step)
      else if isDouble ∧ c = '\\' then
        match escaped place.step with
        | .ok (more, after) => go more after
        | .error error => .error error
      else if isGap c ∨ isBreak c then
        let next := place.skipWhile isGap
        match next.rest with
        | [] => .error .malformed
        | d :: after =>
          if isBreak d then
            let (breaks, after) := next.step.emptyLines isGap (after.length + 1)
            if after.isAtMarker then .error .malformed else go (folded d breaks) after
          else go (place.rest.takeWhile isGap) next
      else go [c] place.step

/-- The text of a quoted scalar, from the place after its opening quote. -/
def quotedText (isDouble : Bool) (place : Place) : Except YamlError (Text × Place) :=
  quotedFrom isDouble (place.rest.length + 1) [] place

end ViewMarkup.Yaml
