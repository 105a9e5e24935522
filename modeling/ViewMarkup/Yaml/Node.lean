import ViewMarkup.Yaml.Token

namespace ViewMarkup.Yaml

/-- A node. -/
inductive Node where
  | scalar (kind : Kind) (text : Text)
  | sequence (kind : Kind) (items : List Node)
  | mapping (kind : Kind) (entries : List (Node × Node))
  /-- A reference to a collection that the reference is part of. -/
  | enclosing (kind : Kind)
  deriving Repr

namespace Node

/-- The node that stands where nothing is written. -/
def absent : Node :=
  .scalar .null []

/-- The kind of a node. -/
def kind : Node → Kind
  | scalar kind _ | sequence kind _ | mapping kind _ | enclosing kind => kind

end Node

/-- What is known between two nodes: the tokens that are left, and the nodes with names, the latest
first. -/
structure NodeState where
  tokens : List Token
  named : List (Text × Node) := []

namespace NodeState

/-- The state after some tokens. -/
def drop (state : NodeState) (count : Nat) : NodeState :=
  { state with tokens := state.tokens.drop count }

/-- Gives a name to a node, if there is a name to give. -/
def name (state : NodeState) (anchor? : Option Text) (node : Node) : NodeState :=
  match anchor? with
  | some anchor => { state with named := (anchor, node) :: state.named }
  | none => state

/-- The error at the next token, where nothing that may follow does. -/
def error (state : NodeState) : YamlError :=
  match state.tokens with
  | .fault error :: _ => error
  | _ => .malformed

end NodeState

/-- The meanings of the handles of tags. -/
abbrev Handles := List (Text × Text)

/-- The handles that every document has. -/
def defaultHandles : Handles :=
  [("!".toList, "!".toList), ("!!".toList, Kind.namespaceText)]

/-- What may stand before a node: a name for it, and a tag. -/
structure Properties where
  anchor? : Option Text := none
  tag? : Option Text := none

/-- The full name that a tag stands for. -/
def Tag.fullName (handles : Handles) (tag : Tag) : Except YamlError Text :=
  match tag.handle? with
  | none => .ok tag.text
  | some handle =>
    match handles.lookup handle with
    | some meaning => .ok (meaning ++ tag.text)
    | none => .error .malformed

/-- The properties that come next, in any order, and the state after them. A name is given once. -/
def properties (handles : Handles) (state : NodeState) : Except YamlError (Properties × NodeState) := do
  let found ← match state.tokens with
    | .anchor name :: .tag tag :: _ => do
      pure ((⟨some name, some (← tag.fullName handles)⟩ : Properties), state.drop 2)
    | .tag tag :: .anchor name :: _ => do
      pure (⟨some name, some (← tag.fullName handles)⟩, state.drop 2)
    | .anchor name :: _ => pure (⟨some name, none⟩, state.drop 1)
    | .tag tag :: _ => do pure (⟨none, some (← tag.fullName handles)⟩, state.drop 1)
    | _ => pure (⟨none, none⟩, state)
  if found.1.anchor?.any fun name => (state.named.lookup name).isSome then throw .malformed
  return found

namespace Properties

/-- Whether the kind of a node is left to its content. -/
def isOpen (properties : Properties) : Bool :=
  properties.tag?.all (· == "!".toList)

/-- The kind of a node, given the kind that its content suggests. -/
def kind (properties : Properties) (suggested : Kind) : Kind :=
  match properties.isOpen, properties.tag? with
  | false, some tag => .ofName tag
  | _, _ => suggested

/-- The kind of a scalar. Without a tag only an unquoted scalar has a kind by its text. -/
def scalarKind (properties : Properties) (isPlain : Bool) (text : Text) : Kind :=
  properties.kind (if isPlain || properties.tag?.isSome then .ofText text else .string)

end Properties

/-- Whether the next token is one of some. -/
def NodeState.isAt (state : NodeState) (tokens : List Token) : Bool :=
  state.tokens.head?.any (tokens.contains ·)

mutual

/-- The next node. Block collections stand where blocks may; an item of a sequence may stand without the
start of one where `isLoose`. The first number bounds the depth. -/
def readNode (handles : Handles) : Nat → (isBlock isLoose : Bool) → NodeState →
    Except YamlError (Node × NodeState)
  | 0, _, _, state => .error state.error
  | fuel + 1, isBlock, isLoose, state =>
    match state.tokens with
    | .reference name :: _ =>
      match state.named.lookup name with
      | some node => .ok (node, state.drop 1)
      | none => .error .malformed
    | _ => do
      let (properties, state) ← properties handles state
      let sequenceKind := properties.kind .sequence
      let mappingKind := properties.kind .mapping
      let asSequence (found : List Node × NodeState) : Node × NodeState :=
        let node := Node.sequence sequenceKind found.1
        (node, found.2.name properties.anchor? node)
      let asMapping (found : List (Node × Node) × NodeState) : Node × NodeState :=
        let node := Node.mapping mappingKind found.1
        (node, found.2.name properties.anchor? node)
      let inSequence := state.name properties.anchor? (.enclosing sequenceKind)
      let inMapping := state.name properties.anchor? (.enclosing mappingKind)
      match state.tokens with
      | .scalar isPlain text :: _ =>
        let node := Node.scalar (properties.scalarKind isPlain text) text
        return (node, (state.drop 1).name properties.anchor? node)
      | .flowSequenceStart :: _ =>
        return asSequence (← readFlowItems handles fuel true [] (inSequence.drop 1))
      | .flowMappingStart :: _ =>
        return asMapping (← readFlowEntries handles fuel true [] (inMapping.drop 1))
      | token :: _ =>
        if isLoose && token == .blockEntry then
          return asSequence (← readLooseItems handles fuel [] inSequence)
        else if isBlock && token == .blockSequenceStart then
          return asSequence (← readBlockItems handles fuel [] (inSequence.drop 1))
        else if isBlock && token == .blockMappingStart then
          return asMapping (← readBlockEntries handles fuel [] (inMapping.drop 1))
        else if properties.anchor?.isSome || properties.tag?.isSome then
          let node := Node.scalar (properties.kind .null) []
          return (node, state.name properties.anchor? node)
        else throw state.error
      | [] =>
        if properties.anchor?.isSome || properties.tag?.isSome then
          let node := Node.scalar (properties.kind .null) []
          return (node, state.name properties.anchor? node)
        else throw .malformed

/-- The next node, or none if one of some tokens comes first. -/
def readOptional (handles : Handles) : Nat → (isBlock isLoose : Bool) → List Token → NodeState →
    Except YamlError (Node × NodeState)
  | 0, _, _, _, state => .error state.error
  | fuel + 1, isBlock, isLoose, ends, state =>
    if state.isAt ends then .ok (.absent, state) else readNode handles fuel isBlock isLoose state

/-- The value after a key, or none if there is no colon or one of some tokens comes after it. -/
def readValue (handles : Handles) : Nat → (isBlock : Bool) → List Token → NodeState →
    Except YamlError (Node × NodeState)
  | 0, _, _, state => .error state.error
  | fuel + 1, isBlock, ends, state =>
    match state.tokens with
    | .value :: _ => readOptional handles fuel isBlock isBlock ends (state.drop 1)
    | _ => .ok (.absent, state)

/-- The items of a block sequence; those before come in reverse. -/
def readBlockItems (handles : Handles) : Nat → List Node → NodeState →
    Except YamlError (List Node × NodeState)
  | 0, _, state => .error state.error
  | fuel + 1, items, state =>
    match state.tokens with
    | .blockEntry :: _ => do
      let (item, after) ←
        readOptional handles fuel true false [.blockEntry, .blockEnd] (state.drop 1)
      readBlockItems handles fuel (item :: items) after
    | .blockEnd :: _ => .ok (items.reverse, state.drop 1)
    | _ => .error state.error

/-- The items of a sequence that has the column of the mapping it belongs to; those before come in
reverse. -/
def readLooseItems (handles : Handles) : Nat → List Node → NodeState →
    Except YamlError (List Node × NodeState)
  | 0, _, state => .error state.error
  | fuel + 1, items, state =>
    match state.tokens with
    | .blockEntry :: _ => do
      let (item, after) ←
        readOptional handles fuel true false [.blockEntry, .key, .value, .blockEnd] (state.drop 1)
      readLooseItems handles fuel (item :: items) after
    | _ => .ok (items.reverse, state)

/-- The entries of a block mapping; those before come in reverse. -/
def readBlockEntries (handles : Handles) : Nat → List (Node × Node) → NodeState →
    Except YamlError (List (Node × Node) × NodeState)
  | 0, _, state => .error state.error
  | fuel + 1, entries, state =>
    match state.tokens with
    | .key :: _ => do
      let ends := [.key, .value, .blockEnd]
      let (key, next) ← readOptional handles fuel true true ends (state.drop 1)
      let (value, after) ← readValue handles fuel true ends next
      readBlockEntries handles fuel ((key, value) :: entries) after
    | .blockEnd :: _ => .ok (entries.reverse, state.drop 1)
    | _ => .error state.error

/-- The items of a flow sequence; those before come in reverse. An item with a key is a mapping of one
entry. -/
def readFlowItems (handles : Handles) : Nat → (isFirst : Bool) → List Node → NodeState →
    Except YamlError (List Node × NodeState)
  | 0, _, _, state => .error state.error
  | fuel + 1, isFirst, items, state =>
    if state.isAt [.flowSequenceEnd] then .ok (items.reverse, state.drop 1)
    else if !isFirst && !state.isAt [.flowEntry] then .error state.error
    else
      let state := if isFirst then state else state.drop 1
      match state.tokens with
      | .flowSequenceEnd :: _ => .ok (items.reverse, state.drop 1)
      | .key :: _ => do
        let (key, next) ←
          readOptional handles fuel false false [.value, .flowEntry, .flowSequenceEnd] (state.drop 1)
        let (value, after) ← readValue handles fuel false [.flowEntry, .flowSequenceEnd] next
        readFlowItems handles fuel false (.mapping .mapping [(key, value)] :: items) after
      | _ => do
        let (item, after) ← readNode handles fuel false false state
        readFlowItems handles fuel false (item :: items) after

/-- The entries of a flow mapping; those before come in reverse. A node without a colon is a key without
a value. -/
def readFlowEntries (handles : Handles) : Nat → (isFirst : Bool) → List (Node × Node) → NodeState →
    Except YamlError (List (Node × Node) × NodeState)
  | 0, _, _, state => .error state.error
  | fuel + 1, isFirst, entries, state =>
    if state.isAt [.flowMappingEnd] then .ok (entries.reverse, state.drop 1)
    else if !isFirst && !state.isAt [.flowEntry] then .error state.error
    else
      let state := if isFirst then state else state.drop 1
      match state.tokens with
      | .flowMappingEnd :: _ => .ok (entries.reverse, state.drop 1)
      | .key :: _ => do
        let (key, next) ←
          readOptional handles fuel false false [.value, .flowEntry, .flowMappingEnd] (state.drop 1)
        let (value, after) ← readValue handles fuel false [.flowEntry, .flowMappingEnd] next
        readFlowEntries handles fuel false ((key, value) :: entries) after
      | _ => do
        let (key, after) ← readNode handles fuel false false state
        readFlowEntries handles fuel false ((key, .absent) :: entries) after

end

/-- The directives before a document: what handles mean, and the tokens after them. The version and each
handle are set at most once. -/
def readDirectives : (hasVersion : Bool) → Handles → List Token → Except YamlError (Handles × List Token)
  | hasVersion, handles, .directive directive :: tokens =>
    match directive with
    | .version major =>
      if hasVersion ∨ major ≠ 1 then .error .malformed else readDirectives true handles tokens
    | .handle name meaning =>
      if (handles.lookup name).isSome then .error .malformed
      else readDirectives hasVersion ((name, meaning) :: handles) tokens
    | .other => readDirectives hasVersion handles tokens
  | _, handles, tokens => .ok (handles, tokens)

/-- The root of a document. -/
def readRoot (handles : Handles) (tokens : List Token) : Except YamlError (Node × NodeState) :=
  readNode handles (4 * tokens.length + 8) true false { tokens }

/-- The root of the only document of a text. Ends of the document may follow it, and nothing else. -/
def Node.ofTokens (tokens : List Token) : Except YamlError Node := do
  let (node, state) ← match tokens with
    | [] => pure (Node.absent, ({ tokens } : NodeState))
    | .directive _ :: _ | .documentStart :: _ => do
      let (handles, rest) ← readDirectives false [] tokens
      match rest with
      | .documentStart :: rest =>
        match rest with
        | [] | .directive _ :: _ | .documentStart :: _ | .documentEnd :: _ =>
          pure (Node.absent, { tokens := rest })
        | _ => readRoot (handles ++ defaultHandles) rest
      | _ => throw ({ tokens := rest } : NodeState).error
    | _ => readRoot defaultHandles tokens
  let rest := state.tokens.dropWhile (· == .documentEnd)
  if rest = [] then return node else throw ({ tokens := rest } : NodeState).error

/-- A character that a YAML text may hold. -/
def isAllowed (c : Char) : Bool :=
  let n := c.toNat
  n == 0x09 || n == 0x0a || n == 0x0d || (0x20 ≤ n && n ≤ 0x7e) || n == 0x85 ||
    (0xa0 ≤ n && n ≤ 0xfffd) || 0x10000 ≤ n

/-- The root of the only document of a text. -/
def Node.ofText (t : Text) : Except YamlError Node :=
  if t.all isAllowed then Node.ofTokens (tokens t) else .error .malformed

end ViewMarkup.Yaml
