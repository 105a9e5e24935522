import ViewMarkup.Yaml.Node

namespace ViewMarkup.Yaml

namespace Node

/-- Whether a node is a mapping. -/
def isMapping : Node → Bool
  | mapping .. => true
  | _ => false

/-- The entries of a mapping; other nodes have none. -/
def entries : Node → List (Node × Node)
  | mapping _ entries => entries
  | _ => []

/-- The entries that the value of a merge key brings in, if it may be merged: the ones of a mapping, or of
the mappings in a sequence, the later mappings first. -/
def merged? : Node → Option (List (Node × Node))
  | mapping _ entries => some entries
  | sequence _ items =>
    if items.all fun item => item.isMapping then some (items.reverse.flatMap entries) else none
  | enclosing kind => if kind.isCollection then some [] else none
  | scalar .. => none

/-- The entries of a mapping with merge keys resolved. What is merged comes first, so that the other
entries win; what cannot be merged stays a merge key and comes before all else. -/
def mergeEntries (entries : List (Node × Node)) : List (Node × Node) :=
  let isMerge (entry : Node × Node) : Bool := entry.1.kind == .merge
  let asEntries (entry : Node × Node) : List (Node × Node) := (merged? entry.2).getD [entry]
  let all := (entries.filter isMerge).flatMap asEntries ++ entries.filter (!isMerge ·)
  all.filter isMerge ++ all.filter (!isMerge ·)

mutual

/-- A node with all merge keys in it resolved. -/
def resolveMerges : Node → Node
  | sequence kind items => sequence kind (resolveItems items)
  | mapping kind entries => mapping kind (mergeEntries (resolveEntries entries))
  | node => node

/-- The items of a sequence with all merge keys in them resolved. -/
def resolveItems : List Node → List Node
  | [] => []
  | item :: items => resolveMerges item :: resolveItems items

/-- The entries of a mapping with all merge keys in their parts resolved. -/
def resolveEntries : List (Node × Node) → List (Node × Node)
  | [] => []
  | (key, value) :: entries => (resolveMerges key, resolveMerges value) :: resolveEntries entries

end

mutual

/-- The text of a node where a scalar is wanted: a mapping stands for its content. -/
def scalarText? : Node → Option Text
  | scalar _ text => some text
  | mapping _ entries => contentText? entries
  | _ => none

/-- The text of the content among the entries of a mapping. -/
def contentText? : List (Node × Node) → Option Text
  | [] => none
  | (key, value) :: entries =>
    if key.kind == .content then scalarText? value else contentText? entries

end

end Node

/-- The value of a node that is no collection. -/
def ofSimple (node : Node) : Except YamlError Yaml :=
  match node.scalarText? with
  | some text => ofScalar node.kind text
  | none => .error .malformed

/-- The key of the content is a text where it is a key of a mapping like others. -/
def asKey : Node → Node
  | .scalar .content text => .scalar .string text
  | node => node

/-- An error and the level at which it arises. -/
abbrev LevelError := Nat × YamlError

/-- The error of a part of a collection at a level, not counting what is in it if it is a collection. -/
def partError (level : Nat) (node : Node) : List LevelError :=
  if node.kind.isCollection then []
  else match ofSimple node with
    | .ok _ => []
    | .error error => [(level, error)]

/-- The error of a key at a level. A collection is no key. -/
def keyError (level : Nat) (node : Node) : List LevelError :=
  if node.kind.isCollection then [(level, .malformed)] else partError level (asKey node)

mutual

/-- The errors in a collection that is filled at a level, in order. -/
def errors (level : Nat) : Node → List LevelError
  | .sequence .sequence items => itemErrors level items
  | .mapping .mapping entries | .mapping .set entries => entryErrors level entries
  | .sequence .orderedMapping items | .sequence .pairs items => pairErrors level items
  | .enclosing _ => []
  | node => if node.kind.isCollection then [(level, .malformed)] else []

/-- The errors in the items of a sequence. -/
def itemErrors (level : Nat) : List Node → List LevelError
  | [] => []
  | item :: items => partError level item ++ errors (level + 1) item ++ itemErrors level items

/-- The errors in the entries of a mapping. -/
def entryErrors (level : Nat) : List (Node × Node) → List LevelError
  | [] => []
  | (key, value) :: entries =>
    keyError level key ++ partError level value ++ errors (level + 1) value ++ entryErrors level entries

/-- The errors in a sequence of pairs, each of them a mapping of one entry. -/
def pairErrors (level : Nat) : List Node → List LevelError
  | [] => []
  | .mapping _ [(key, value)] :: items =>
    partError level key ++ partError level value ++ errors (level + 1) key ++ errors (level + 1) value ++
      pairErrors level items
  | _ :: items => (level, .malformed) :: pairErrors level items

end

/-- The error that arises first: the least level counts, and the first error of that level. -/
def firstError? (errors : List LevelError) : Option YamlError :=
  let first? := errors.foldl (fun (first? : Option LevelError) error =>
    match first? with
    | some first => if error.1 < first.1 then some error else some first
    | none => some error) none
  first?.map Prod.snd

/-- The value of a key without errors. -/
def ofKey (node : Node) : Yaml :=
  (ofSimple (asKey node)).toOption.getD null

mutual

/-- The value of a node without errors. -/
def ofNode : Node → Yaml
  | .sequence .sequence items => sequence (ofNodes items)
  | .mapping .mapping entries => mapping (ofEntries entries)
  | .mapping .set entries => set (ofKeys entries)
  | .sequence .orderedMapping items | .sequence .pairs items => sequence (ofPairs items)
  | .enclosing .mapping => mapping []
  | .enclosing .set => set []
  | .enclosing _ => sequence []
  | node => (ofSimple node).toOption.getD null

/-- The values of nodes. -/
def ofNodes : List Node → List Yaml
  | [] => []
  | node :: nodes => ofNode node :: ofNodes nodes

/-- The values of the parts of entries. -/
def ofEntries : List (Node × Node) → List (Yaml × Yaml)
  | [] => []
  | (key, value) :: entries => (ofKey key, ofNode value) :: ofEntries entries

/-- The values of the keys of entries. -/
def ofKeys : List (Node × Node) → List Yaml
  | [] => []
  | (key, _) :: entries => ofKey key :: ofKeys entries

/-- The values of pairs. -/
def ofPairs : List Node → List Yaml
  | [] => []
  | .mapping _ [(key, value)] :: items => pair (ofNode key) (ofNode value) :: ofPairs items
  | _ :: items => ofPairs items

end

/-- The value of a YAML text. -/
def read (t : Text) : Except YamlError Yaml := do
  let root := (← Node.ofText t).resolveMerges
  match firstError? (partError 0 root ++ errors 1 root) with
  | some error => .error error
  | none => .ok (ofNode root)

end ViewMarkup.Yaml
