import ViewMarkup.Proofs.Document.WellFormed
import ViewMarkup.Proofs.Text.Distinct
import ViewMarkup.React.Module

namespace ViewMarkup

/-- What the nodes of a document are, each before what is below it. -/
def Document.contents (document : Document) : List Content :=
  (Node.preorderForest document.nodes).map Node.content

/-- Every node of a document has one of the known roles. -/
theorem Document.exists_role {t : Text} {content : Content} (hcontent : content ∈ (ofText t).contents) :
    ∃ role, content.role? = some role := by
  obtain ⟨node, hnode, rfl⟩ := List.mem_map.mp hcontent
  obtain ⟨root, hroot, hbelow⟩ := Node.mem_preorderForest.mp hnode
  exact (Node.forall_mem_preorder (fun _ h _ => h.child) (nodes_shaped t root hroot).1 hbelow).exists_role

namespace React

/-- Whatever has a role other than that of a leaf or of text is rendered with what is below it. -/
theorem rendersChildren_of_role? {content : Content} {role : Role} (hrole : content.role? = some role)
    (hleaf : role ≠ .leaf) (htext : role ≠ .text) : rendersChildren content := by
  have hholds := Content.mayHold_of_role? hrole hleaf htext
  cases content with
  | element tag value? attributes =>
    simp only [rendersChildren, bne_iff_ne]
    rintro rfl
    revert hholds
    simp only [Content.mayHold]
    decide
  | component | loop | guard => rfl
  | _ => cases hholds

theorem children_eq_nil_or_rendersChildren {node : Node} (hshaped : node.Shaped) :
    node.children = [] ∨ rendersChildren node.content := by
  obtain ⟨role, hrole⟩ := hshaped.exists_role
  by_cases hleaf : role = .leaf
  · exact .inl (hshaped.children_eq_nil (.inl (hleaf ▸ hrole)))
  by_cases htext : role = .text
  · exact .inl (hshaped.children_eq_nil (.inr (htext ▸ hrole)))
  · exact .inr (rendersChildren_of_role? hrole hleaf htext)

theorem forestEffects_eq_flatMap (format : Format) (nodes : List Node) :
    forestEffects format nodes = nodes.flatMap (effects format) := by
  induction nodes with
  | nil => rfl
  | cons node nodes ih => rw [forestEffects, ih, List.flatMap_cons]

/-- The effects of a well-formed node are those of the nodes from it on down, in order. -/
theorem effects_eq (format : Format) {node : Node} (hshaped : node.Shaped) :
    effects format node = node.preorder.flatMap fun below => contentEffects format below.content := by
  induction node using Node.induction with
  | mk content span? children ih =>
    rw [effects, Node.preorder, List.flatMap_cons]
    congr 1
    have hbelow : forestEffects format children =
        (Node.preorderForest children).flatMap fun below => contentEffects format below.content := by
      rw [forestEffects_eq_flatMap, Node.preorderForest_eq_flatMap, List.flatMap_assoc]
      exact List.flatMap_congr fun child hchild => ih child hchild (hshaped.child hchild)
    obtain hnil | hrenders := children_eq_nil_or_rendersChildren hshaped
    · obtain rfl : children = [] := hnil
      simp [Node.preorderForest, forestEffects]
    · rw [← hbelow]
      exact if_pos hrenders

theorem forestEffects_ofText (t : Text) (format : Format) :
    forestEffects format (Document.ofText t).nodes =
      (Document.ofText t).contents.flatMap (contentEffects format) := by
  rw [forestEffects_eq_flatMap, Document.contents, List.flatMap_map, Node.preorderForest_eq_flatMap,
    List.flatMap_assoc]
  exact List.flatMap_congr fun node hnode => effects_eq format (Document.nodes_shaped t node hnode).1

namespace Effect

/-- The hook that an effect imports. -/
def hook? : Effect → Option Text
  | use hook => some hook
  | _ => none

/-- The declaration that an effect adds. -/
def declaration? : Effect → Option Text
  | declare block => some block
  | _ => none

/-- The function that an effect adds. -/
def function? : Effect → Option Text
  | define block => some block
  | _ => none

/-- The failure of an effect that fails. -/
def failure? : Effect → Option Failure
  | fail failure => some failure
  | _ => none

end Effect

/-- Adding up effects ends at the first one that fails. -/
theorem Emitted.add_failure (emitted : Emitted) (effects : List Effect) :
    (emitted.add effects).2 = effects.findSome? Effect.failure? := by
  induction effects generalizing emitted with
  | nil => rfl
  | cons effect effects ih =>
    cases effect with
    | fail failure => rfl
    | use | declare | define => exact ih _

/-- Without a failure every declaration and function is kept, and every hook that was not there before. -/
theorem Emitted.add_emitted {effects : List Effect} (hfails : effects.findSome? Effect.failure? = none)
    {emitted : Emitted} (hooks : List Text) (hruntime : emitted.runtime = hooks.eraseDups) :
    (emitted.add effects).1 =
      ⟨(hooks ++ effects.filterMap Effect.hook?).eraseDups,
       emitted.declarations ++ effects.filterMap Effect.declaration?,
       emitted.functions ++ effects.filterMap Effect.function?⟩ := by
  induction effects generalizing emitted hooks with
  | nil => simp [add, ← hruntime]
  | cons effect effects ih =>
    cases effect with
    | fail failure => cases hfails
    | use hook =>
      rw [add, hruntime, ← eraseDups_concat,
        @ih hfails { emitted with runtime := (hooks ++ [hook]).eraseDups } _ rfl]
      simp [List.filterMap_cons, Effect.hook?, Effect.declaration?, Effect.function?]
    | declare block =>
      rw [add, @ih hfails { emitted with declarations := emitted.declarations ++ [block] } hooks hruntime]
      simp [List.filterMap_cons, Effect.hook?, Effect.declaration?, Effect.function?]
    | define block =>
      rw [add, @ih hfails { emitted with functions := emitted.functions ++ [block] } hooks hruntime]
      simp [List.filterMap_cons, Effect.hook?, Effect.declaration?, Effect.function?]

/-- Why nothing can be generated for a fetch: its address is missing, or an integer of its seed is too
long. -/
def fetchFailure? (fetch : Fetch) : Option Failure :=
  if hasBlankUrl fetch then some (.missingUrl fetch.result)
  else match InitialState.ofSeed fetch.seed with
    | .error error => some (.longInteger error)
    | .ok _ => none

/-- Why nothing can be generated for a node, whatever is below it. -/
def contentFailure? : Content → Option Failure
  | .fetch fetch => fetchFailure? fetch
  | .unknown => some .unknownNode
  | _ => none

theorem fetchFailure?_eq_none_iff {fetch : Fetch} :
    fetchFailure? fetch = none ↔
      hasBlankUrl fetch = false ∧ ∃ state, InitialState.ofSeed fetch.seed = .ok state := by
  unfold fetchFailure?
  cases hasBlankUrl fetch with
  | true => simp
  | false => cases InitialState.ofSeed fetch.seed <;> simp

theorem failure_fetchEffects (format : Format) (fetch : Fetch) :
    (fetchEffects format fetch).findSome? Effect.failure? = fetchFailure? fetch := by
  unfold fetchEffects fetchFailure?
  split
  · rfl
  · cases InitialState.ofSeed fetch.seed <;> rfl

theorem failure_contentEffects (format : Format) (content : Content) :
    (contentEffects format content).findSome? Effect.failure? = contentFailure? content := by
  cases content with
  | fetch fetch => exact failure_fetchEffects format fetch
  | script signature body =>
    simp only [contentEffects]
    split <;> rfl
  | _ => rfl

theorem failure_flatMap (format : Format) (contents : List Content) :
    (contents.flatMap (contentEffects format)).findSome? Effect.failure? =
      contents.findSome? contentFailure? := by
  induction contents with
  | nil => rfl
  | cons content contents ih =>
    rw [List.flatMap_cons, List.findSome?_append, failure_contentEffects, ih, List.findSome?_cons]
    cases contentFailure? content <;> rfl

/-- One level of indentation. -/
def Options.unit (options : Options) : Text :=
  Text.times " " options.indentWidth

/-- The choices inside a component. -/
def Options.format (options : Options) : Format :=
  ⟨options.unit, options.authToken⟩

/-- The module of a document to which the given things have been added. -/
def moduleText (document : Document) (resolver : Resolver) (options : Options) (emitted : Emitted) : Text :=
  let signature := document.signature?.getD ⟨defaultName, []⟩
  Text.join "\n" (moduleLines options.unit signature
    (importLines (componentNames document.nodes) (identifier signature.name) resolver document.imports
      emitted.runtime options.runtimeModule options.routerModule)
    (forestMarkup options.unit 3 document.nodes) emitted)

theorem generate_eq (document : Document) (resolver : Resolver) (options : Options) :
    generate document resolver options =
      match Emitted.empty.add (forestEffects options.format document.nodes) with
      | (_, some failure) => .error failure
      | (emitted, none) => .ok (moduleText document resolver options emitted) :=
  rfl

section Document

variable (t : Text) (resolver : Resolver) (options : Options)

/-- Adding up the effects of a document ends at the first node for which nothing can be generated. -/
theorem add_ofText_failure (format : Format) :
    (Emitted.empty.add (forestEffects format (Document.ofText t).nodes)).2 =
      (Document.ofText t).contents.findSome? contentFailure? := by
  rw [Emitted.add_failure, forestEffects_ofText, failure_flatMap]

/-- Generation fails exactly with the first node for which nothing can be generated. -/
theorem generate_ofText :
    generate (Document.ofText t) resolver options =
      match (Document.ofText t).contents.findSome? contentFailure? with
      | some failure => .error failure
      | none => .ok (moduleText (Document.ofText t) resolver options
          (Emitted.empty.add (forestEffects options.format (Document.ofText t).nodes)).1) := by
  rw [generate_eq, ← add_ofText_failure t options.format]
  obtain ⟨emitted, failure?⟩ := Emitted.empty.add (forestEffects options.format (Document.ofText t).nodes)
  cases failure? <;> rfl

end Document

end React

end ViewMarkup
