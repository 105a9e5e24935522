import ViewMarkup.Yaml.Block
import ViewMarkup.Yaml.Plain
import ViewMarkup.Yaml.Quoted
import ViewMarkup.Yaml.Tag

namespace ViewMarkup.Yaml

/-- A token. -/
inductive Token where
  | directive (directive : Directive)
  | documentStart
  | documentEnd
  | blockSequenceStart
  | blockMappingStart
  | blockEnd
  | flowSequenceStart
  | flowSequenceEnd
  | flowMappingStart
  | flowMappingEnd
  | blockEntry
  | flowEntry
  | key
  | value
  | anchor (name : Text)
  /-- A node that was named before. -/
  | reference (name : Text)
  | tag (tag : Tag)
  | scalar (isPlain : Bool) (text : Text)
  /-- The text cannot be read from here on. -/
  | fault (error : YamlError)
  deriving DecidableEq, Repr

/-- A place where a key may have started. -/
structure PossibleKey where
  /-- The number of tokens before it. -/
  position : Nat
  /-- Whether nothing but a key may stand there. -/
  isRequired : Bool
  place : Place

/-- A key is on one line and has at most this many characters. -/
def keyLimit : Nat := 1024

/-- Whether a key that started before is over at a place. -/
def PossibleKey.isStale (key : PossibleKey) (place : Place) : Bool :=
  key.place.line != place.line || keyLimit < place.index - key.place.index

/-- What is known between two tokens. -/
structure TokenState where
  place : Place
  tokens : Array Token := #[]
  /-- The columns of the open block collections, innermost first. -/
  indents : List Nat := []
  /-- Whether a key may start at the place. -/
  allowsKey : Bool := true
  /-- Where a key may have started in the innermost flow collection, or outside of them all. -/
  key? : Option PossibleKey := none
  /-- The same for the collections around it, innermost first. -/
  outerKeys : List (Option PossibleKey) := []

namespace TokenState

/-- Whether the place is within a flow collection. -/
def inFlow (state : TokenState) : Bool :=
  !state.outerKeys.isEmpty

/-- The column that lines nested in the innermost block collection have at least. -/
def least (state : TokenState) : Nat :=
  match state.indents with
  | [] => 0
  | column :: _ => column + 1

/-- The state with one more token. -/
def push (state : TokenState) (token : Token) : TokenState :=
  { state with tokens := state.tokens.push token }

/-- No key has started after all. -/
def dropKey (state : TokenState) : Except YamlError TokenState :=
  if state.key?.any PossibleKey.isRequired then .error .malformed
  else .ok { state with key? := none }

/-- A key may start here, if one is allowed. It has to be one if a block collection has this column. -/
def noteKey (state : TokenState) : Except YamlError TokenState :=
  if state.allowsKey then do
    let state ← state.dropKey
    let isRequired := !state.inFlow && state.indents.head? == some state.place.column
    return { state with key? := some ⟨state.tokens.size, isRequired, state.place⟩ }
  else .ok state

/-- The keys that are over at the place are none. -/
def dropStaleKeys (state : TokenState) : Except YamlError TokenState :=
  let isStale (key? : Option PossibleKey) : Bool := key?.any (·.isStale state.place)
  let keep (key? : Option PossibleKey) : Option PossibleKey := if isStale key? then none else key?
  let isMissing (key? : Option PossibleKey) : Bool := isStale key? && key?.any PossibleKey.isRequired
  if (state.key? :: state.outerKeys).any isMissing then .error .malformed
  else .ok { state with key? := keep state.key?, outerKeys := state.outerKeys.map keep }

/-- Closes the block collections at columns with a property, from the innermost on. Within a flow
collection, indentation means nothing. -/
def closeBlocks (state : TokenState) (isOver : Nat → Bool) : TokenState :=
  if state.inFlow then state
  else
    let closed := state.indents.takeWhile isOver
    { state with
      indents := state.indents.drop closed.length
      tokens := state.tokens ++ closed.map fun _ => Token.blockEnd }

/-- Starts a block collection at a column, unless one is open there. The token that starts it is put at a
position. -/
def indentAt (state : TokenState) (column position : Nat) (token : Token) : TokenState :=
  if state.indents.head?.all (· < column) then
    { state with
      indents := column :: state.indents
      tokens := state.tokens.insertIdxIfInBounds position token }
  else state

/-- The next place that is neither blank nor in a comment, and whether a line ended on the way there. The
first number bounds the number of lines. -/
def nextPlace : Nat → Place → Place × Bool
  | 0, place => (place, false)
  | fuel + 1, place =>
    let next := place.skipWhile (· == ' ')
    let next := if next.rest.head? = some '#' then next.skipWhile fun c => !isBreak c else next
    if next.rest.head?.any isBreak then ((nextPlace fuel next.step).1, true) else (next, false)

/-- Moves on to the next token. A new line outside of flow collections may start with a key, and ends the
block collections that it is not indented enough for. -/
def settle (state : TokenState) : Except YamlError TokenState := do
  let start := if state.place.index = 0 ∧ state.place.rest.head? = some '\ufeff' then state.place.step
    else state.place
  let (place, isFresh) := nextPlace (start.rest.length + 1) start
  let state := { state with place, allowsKey := state.allowsKey || (isFresh && !state.inFlow) }
  let state ← state.dropStaleKeys
  return state.closeBlocks (place.column < ·)

/-- Closes everything before a directive, a marker of a document or the end of the text. -/
def closeAll (state : TokenState) : Except YamlError TokenState := do
  let state ← (state.closeBlocks fun _ => true).dropKey
  return { state with allowsKey := false }

/-- A marker of a document. -/
def marker (state : TokenState) (token : Token) : Except YamlError TokenState := do
  let state ← state.closeAll
  return { state.push token with place := state.place.advance 3 }

/-- The start of a flow collection, which may be a key. -/
def flowStart (state : TokenState) (token : Token) : Except YamlError TokenState := do
  let state ← state.noteKey
  return { state.push token with
    place := state.place.step, allowsKey := true, key? := none, outerKeys := state.key? :: state.outerKeys }

/-- The end of a flow collection. -/
def flowEnd (state : TokenState) (token : Token) : Except YamlError TokenState := do
  let state ← state.dropKey
  match state.outerKeys with
  | [] => throw .malformed
  | key? :: outerKeys =>
    return { state.push token with place := state.place.step, allowsKey := false, key?, outerKeys }

/-- The comma between the parts of a flow collection. -/
def flowEntry (state : TokenState) : Except YamlError TokenState := do
  let state ← state.dropKey
  return { state.push .flowEntry with place := state.place.step, allowsKey := true }

/-- Starts a block collection at the place, where one may start only if a key may. -/
def blockStart (state : TokenState) (token : Token) : Except YamlError TokenState :=
  if state.inFlow then .ok state
  else if state.allowsKey then
    .ok (state.indentAt state.place.column state.tokens.size token)
  else .error .malformed

/-- The hyphen before an item of a block sequence. -/
def blockEntry (state : TokenState) : Except YamlError TokenState := do
  let state ← state.blockStart .blockSequenceStart
  let state ← state.dropKey
  return { state.push .blockEntry with place := state.place.step, allowsKey := true }

/-- The question mark before a key. -/
def explicitKey (state : TokenState) : Except YamlError TokenState := do
  let state ← state.blockStart .blockMappingStart
  let state ← state.dropKey
  return { state.push .key with place := state.place.step, allowsKey := !state.inFlow }

/-- The colon after a key. If a key may have started before, it did. -/
def value (state : TokenState) : Except YamlError TokenState :=
  match state.key? with
  | some key =>
    let state := { state with
      key? := none, allowsKey := false
      tokens := state.tokens.insertIdxIfInBounds key.position .key }
    let state := if state.inFlow then state
      else state.indentAt key.place.column key.position .blockMappingStart
    .ok { state.push .value with place := state.place.step }
  | none => do
    let state ← state.blockStart .blockMappingStart
    return { state.push .value with place := state.place.step, allowsKey := !state.inFlow }

/-- A token that may be a key or the start of one. -/
def keyLike (state : TokenState) (read : Place → Except YamlError (Token × Place)) :
    Except YamlError TokenState := do
  let state ← state.noteKey
  let (token, place) ← read state.place
  return { state.push token with place, allowsKey := false }

/-- An unquoted scalar, which may be a key. -/
def plain (state : TokenState) : Except YamlError TokenState := do
  let state ← state.noteKey
  let found := plainScalar state.inFlow state.least state.place
  return { state.push (.scalar true found.text) with
    place := found.after, allowsKey := found.isFresh }

/-- A scalar in a block of its own, after which a key may follow. -/
def block (state : TokenState) (isFolded : Bool) : Except YamlError TokenState := do
  let state ← state.dropKey
  let (text, place) ← blockText isFolded state.least state.place.step
  return { state.push (.scalar false text) with place, allowsKey := true }

/-- Reads the next token. -/
def next (state : TokenState) : Except YamlError TokenState :=
  match state.place.rest with
  | [] => .ok state
  | c :: rest =>
    if c = '%' ∧ state.place.column = 0 then do
      let state ← state.closeAll
      let (found, place) ← directive state.place
      return { state.push (.directive found) with place }
    else if state.place.isAt "---" then state.marker .documentStart
    else if state.place.isAt "..." then state.marker .documentEnd
    else if c = '[' then state.flowStart .flowSequenceStart
    else if c = '\x7b' then state.flowStart .flowMappingStart
    else if c = ']' then state.flowEnd .flowSequenceEnd
    else if c = '\x7d' then state.flowEnd .flowMappingEnd
    else if c = ',' then state.flowEntry
    else if c = '-' ∧ startsGap rest then state.blockEntry
    else if c = '?' ∧ (state.inFlow ∨ startsGap rest) then state.explicitKey
    else if c = ':' ∧ (state.inFlow ∨ startsGap rest) then state.value
    else if c = '*' then
      state.keyLike fun place => (anchorName place.step).map fun (name, after) => (.reference name, after)
    else if c = '&' then
      state.keyLike fun place => (anchorName place.step).map fun (name, after) => (.anchor name, after)
    else if c = '!' then
      state.keyLike fun place => (tag place).map fun (tag, after) => (.tag tag, after)
    else if c = '|' ∧ !state.inFlow then state.block false
    else if c = '>' ∧ !state.inFlow then state.block true
    else if c = '\'' ∨ c = '"' then
      state.keyLike fun place =>
        (quotedText (c == '"') place.step).map fun (text, after) => (.scalar false text, after)
    else if startsPlain state.inFlow (c :: rest) then state.plain
    else .error .malformed

/-- The tokens up to the end of the text or the first fault. The first number bounds their number. -/
def run : Nat → TokenState → Array Token
  | 0, state => state.tokens
  | fuel + 1, state =>
    match state.settle with
    | .error error => state.tokens.push (.fault error)
    | .ok state =>
      match state.place.rest with
      | [] =>
        match state.closeAll with
        | .error error => state.tokens.push (.fault error)
        | .ok state => state.tokens
      | _ :: _ =>
        match state.next with
        | .error error => state.tokens.push (.fault error)
        | .ok state => run fuel state

end TokenState

/-- The tokens of a text. -/
def tokens (t : Text) : List Token :=
  (TokenState.run (t.length + 2) { place := .start t }).toList

end ViewMarkup.Yaml
