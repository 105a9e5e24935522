import ViewMarkup.Text.Utf8
import ViewMarkup.Yaml.Error
import ViewMarkup.Yaml.Place
import ViewMarkup.Yaml.Scalar

namespace ViewMarkup.Yaml

/-- The characters of anchors, of handles and of the names of directives. -/
def isNameChar (c : Char) : Bool :=
  c.isAlphanum || c == '-' || c == '_'

/-- The name of an anchor, from the place after its indicator. A name ends before a blank or one of the
indicators that may follow it. -/
def anchorName (place : Place) : Except YamlError (Text × Place) :=
  let name := place.rest.takeWhile isNameChar
  let after := place.advance name.length
  let isOver := startsGap after.rest || after.rest.head?.any ("?:,]\x7d%@`".toList.contains ·)
  if name ≠ [] ∧ isOver then .ok (name, after) else .error .malformed

/-- The characters of a tag, which are the ones of an address. -/
def isTagChar (c : Char) : Bool :=
  c.isAlphanum || "-;/?:@&=+$,_.!~*'()[]%".toList.contains c

/-- The octets of a run of escapes, and the place after it. -/
def tagOctets : Nat → Place → Except YamlError (List UInt8 × Place)
  | 0, place => .ok ([], place)
  | fuel + 1, place =>
    match place.rest with
    | '%' :: a :: b :: _ =>
      match isHexDigit a && isHexDigit b, digits? 16 [a, b] with
      | true, some n => do
        let (octets, after) ← tagOctets fuel (place.advance 3)
        return (UInt8.ofNat n :: octets, after)
      | _, _ => .error .malformed
    | '%' :: _ => .error .malformed
    | _ => .ok ([], place)

/-- The text of a tag as far as its characters go. The first number bounds the length. -/
def tagTextFrom : Nat → Place → Except YamlError (Text × Place)
  | 0, place => .ok ([], place)
  | fuel + 1, place =>
    match place.rest with
    | [] => .ok ([], place)
    | c :: _ =>
      if c = '%' then do
        let (octets, next) ← tagOctets (place.rest.length + 1) place
        match Utf8.decode octets with
        | .error _ => .error .malformed
        | .ok text =>
          let (more, after) ← tagTextFrom fuel next
          return (text ++ more, after)
      else if isTagChar c then do
        let (more, after) ← tagTextFrom fuel place.step
        return (c :: more, after)
      else .ok ([], place)

/-- The text of a tag, which is not empty. -/
def tagText (place : Place) : Except YamlError (Text × Place) := do
  let (text, after) ← tagTextFrom (place.rest.length + 1) place
  if after.index = place.index then .error .malformed else return (text, after)

/-- The handle of a tag, from its first exclamation mark to its second one. Before a space the first one
is the whole handle. -/
def tagHandle (place : Place) : Except YamlError (Text × Place) :=
  match place.rest with
  | '!' :: ' ' :: _ => .ok ("!", place.step)
  | '!' :: rest =>
    let name := rest.takeWhile isNameChar
    if (rest.drop name.length).head? = some '!' then
      .ok ("!" ++ name ++ "!", place.advance (name.length + 2))
    else .error .malformed
  | _ => .error .malformed

/-- A tag: its handle, if it has one, and the rest of its name. -/
structure Tag where
  handle? : Option Text
  text : Text
  deriving DecidableEq, Repr

/-- The tag at an exclamation mark. A tag in angle brackets has no handle; a lone mark is a tag too. -/
def tag (place : Place) : Except YamlError (Tag × Place) := do
  let rest := place.rest.drop 1
  let (found, after) ←
    if rest.head? = some '<' then do
      let (text, after) ← tagText (place.advance 2)
      if after.rest.head? = some '>' then pure ((⟨none, text⟩ : Tag), after.step)
      else throw YamlError.malformed
    else if startsGap rest then pure (⟨none, "!"⟩, place.step)
    else do
      let hasHandle := (rest.takeWhile fun c => !(c == ' ' || isBreak c)).contains '!'
      let (handle, next) ← if hasHandle then tagHandle place else pure ("!".toList, place.step)
      let (text, after) ← tagText next
      pure (⟨some handle, text⟩, after)
  if startsSpace after.rest then return (found, after) else throw .malformed

/-- A directive. -/
inductive Directive where
  /-- The version of the language, of which only the first number counts. -/
  | version (major : Nat)
  /-- What a handle stands for. -/
  | handle (name meaning : Text)
  | other
  deriving DecidableEq, Repr

/-- The number at a place, and the place after it. -/
def versionNumber (place : Place) : Except YamlError (Nat × Place) :=
  let digits := place.rest.takeWhile Char.isDigit
  match digits? 10 digits with
  | some n => .ok (n, place.advance digits.length)
  | none => .error .malformed

/-- What a directive with a name says, and the place after it. -/
def directiveBody (name : Text) (place : Place) : Except YamlError (Directive × Place) :=
  if name = "YAML".toList then do
    let (major, next) ← versionNumber (place.skipWhile (· == ' '))
    if next.rest.head? ≠ some '.' then throw .malformed
    let (_, after) ← versionNumber next.step
    if startsSpace after.rest then return (.version major, after) else throw .malformed
  else if name = "TAG".toList then do
    let (handle, next) ← tagHandle (place.skipWhile (· == ' '))
    if next.rest.head? ≠ some ' ' then throw .malformed
    let (meaning, after) ← tagText (next.skipWhile (· == ' '))
    if startsSpace after.rest then return (.handle handle meaning, after) else throw .malformed
  else .ok (.other, place.skipWhile fun c => !isBreak c)

/-- The directive at a per cent sign, and the place of the next line. -/
def directive (place : Place) : Except YamlError (Directive × Place) := do
  let place := place.step
  let name := place.rest.takeWhile isNameChar
  let next := place.advance name.length
  if name = [] ∨ !startsSpace next.rest then throw .malformed
  let (found, after) ← directiveBody name next
  match after.afterLine? with
  | some after => return (found, after)
  | none => throw .malformed

end ViewMarkup.Yaml
