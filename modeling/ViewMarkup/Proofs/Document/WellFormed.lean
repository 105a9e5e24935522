import ViewMarkup.Proofs.Document.Shape

namespace ViewMarkup

/-- The tags that prose can have. -/
def proseTags : List Text :=
  ["h1", "h2", "h3", "h4", "h5", "h6", "p", "div", "ul", "li", "a", "img", "strong", "em"].map String.toList

namespace Content

/-- Text inside emphasis or a link. -/
def isText : Content → Bool
  | text .. => true
  | _ => false

/-- Emphasis or a link. -/
def isEmphasis : Content → Bool
  | element tag _ _ => emphasisTags.contains tag
  | _ => false

/-- Content below which nothing stands: scripts, declarations, fetches, remarks and prose that has
all its text on one line. -/
def isLeaf : Content → Bool
  | element tag _ _ => plainTags.contains tag
  | data .. | state .. | fetch .. | script .. | comment .. => true
  | _ => false

/-- Content below which nodes may stand. -/
def mayHold : Content → Bool
  | element tag _ _ => tag == "ul".toList || tag == "li".toList || emphasisTags.contains tag
  | component .. | loop .. | guard .. => true
  | _ => false

theorem isText_iff {content : Content} : content.isText ↔ content.role? = some .text := by
  cases content with
  | element tag value? attributes =>
    simp only [isText, role?]
    repeat' split
    all_goals simp
  | component name props =>
    simp only [isText, role?]
    split <;> simp
  | _ => simp [isText, role?]

theorem isEmphasis_iff {content : Content} : content.isEmphasis ↔ content.role? = some .emphasis := by
  cases content with
  | element tag value? attributes =>
    simp only [isEmphasis, List.contains_iff_mem]
    constructor
    · exact fun htag => Node.role?_of_emphasisTag htag value? attributes
    · intro hrole
      simp only [role?] at hrole
      repeat' split at hrole
      all_goals simp_all
  | component name props =>
    simp only [isEmphasis, role?]
    split <;> simp
  | _ => simp [isEmphasis, role?]

theorem isLeaf_iff {content : Content} : content.isLeaf ↔ content.role? = some .leaf := by
  cases content with
  | element tag value? attributes =>
    simp only [isLeaf, List.contains_iff_mem]
    constructor
    · exact fun htag => Node.role?_of_plainTag htag value? attributes
    · intro hrole
      simp only [role?] at hrole
      repeat' split at hrole
      all_goals simp_all
  | component name props =>
    simp only [isLeaf, role?]
    split <;> simp
  | _ => simp [isLeaf, role?]

/-- Whatever has a role other than that of a leaf or of text may hold nodes. -/
theorem mayHold_of_role? {content : Content} {role : Role} (hrole : content.role? = some role)
    (hleaf : role ≠ .leaf) (htext : role ≠ .text) : content.mayHold := by
  cases content with
  | element tag value? attributes =>
    simp only [role?] at hrole
    simp only [mayHold, Bool.or_eq_true, beq_iff_eq, List.contains_iff_mem]
    repeat' split at hrole
    all_goals simp_all
  | component | loop | guard => rfl
  | text value => exact (htext (Option.some.inj hrole).symm).elim
  | data | state | fetch | script | comment => exact (hleaf (Option.some.inj hrole).symm).elim
  | expression | unknown => cases hrole

/-- Prose with a role has one of the tags. -/
theorem mem_proseTags {tag : Text} {value? : Option Inline} {attributes : Fields Inline} {role : Role}
    (hrole : (element tag value? attributes).role? = some role) : tag ∈ proseTags := by
  simp only [role?] at hrole
  split at hrole
  · rename_i htag
    rw [htag]
    decide
  split at hrole
  · rename_i htag
    rw [htag]
    decide
  split at hrole
  · rename_i htag
    exact (by decide : plainTags ⊆ proseTags) htag
  split at hrole
  · rename_i htag
    exact (by decide : emphasisTags ⊆ proseTags) htag
  · cases hrole

theorem not_mem_reserved {name : Text} {props : Fields Value} {role : Role}
    (hrole : (component name props).role? = some role) : name ∉ reserved := by
  intro hname
  simp [role?, hname] at hrole

end Content

namespace Node

/-- Leaves and text have nothing below them. -/
theorem Shaped.children_eq_nil {node : Node} (hshaped : node.Shaped)
    (hrole : node.content.role? = some .leaf ∨ node.content.role? = some .text) : node.children = [] := by
  cases hshaped with
  | leaf | text => rfl
  | emphasis hemphasis => simp [Node.content, hemphasis] at hrole
  | branch hbranch => obtain hbranch | hbranch := hbranch <;> simp [Node.content, hbranch] at hrole
  | list hlist => simp [Node.content, hlist] at hrole

theorem Shaped.emphasis_children {node : Node} (hshaped : node.Shaped)
    (hrole : node.content.role? = some .emphasis) :
    ∃ child, node.children = [child] ∧ child.content.role? = some .text := by
  cases hshaped with
  | leaf hleaf => simp [Node.content, hleaf] at hrole
  | text => cases hrole
  | emphasis _ span value inner => exact ⟨_, rfl, rfl⟩
  | branch hbranch => obtain hbranch | hbranch := hbranch <;> simp [Node.content, hbranch] at hrole
  | list hlist => simp [Node.content, hlist] at hrole

/-- An item is below a list, and text is below emphasis. -/
theorem Shaped.parent_role {node child : Node} (hshaped : node.Shaped) (hchild : child ∈ node.children) :
    (child.content.role? = some .item → node.content.role? = some .list) ∧
      (child.content.role? = some .text → node.content.role? = some .emphasis) := by
  cases hshaped with
  | leaf | text => cases hchild
  | emphasis hrole span value inner =>
    obtain rfl := List.mem_singleton.mp hchild
    exact ⟨by simp [Node.content, Content.role?], fun _ => hrole⟩
  | branch hrole span hchildren hblocks =>
    obtain ⟨htext, hitem⟩ := hblocks child hchild
    exact ⟨fun h => (hitem h).elim, fun h => (htext h).elim⟩
  | list hrole span hne hchildren hitems =>
    have hitem := hitems child hchild
    exact ⟨fun _ => hrole, by simp [hitem]⟩

theorem Shaped.span?_isSome {node : Node} (hshaped : node.Shaped) : node.span?.isSome := by
  cases hshaped <;> rfl

end Node

/-- The form of a forest, node by node. -/
structure WellFormed (forest : List Node) : Prop where
  list : ∀ node ∈ Node.preorderForest forest, node.content.isList →
    node.children ≠ [] ∧ ∀ child ∈ node.children, child.content.isItem
  item_root : ∀ node ∈ forest, node.content.isItem = false
  item : ∀ node ∈ Node.preorderForest forest, ∀ child ∈ node.children,
    child.content.isItem → node.content.isList
  holder : ∀ node ∈ Node.preorderForest forest, node.children ≠ [] → node.content.mayHold
  emphasis : ∀ node ∈ Node.preorderForest forest, node.content.isEmphasis →
    ∃ child, node.children = [child] ∧ child.content.isText
  text_root : ∀ node ∈ forest, node.content.isText = false
  text : ∀ node ∈ Node.preorderForest forest, ∀ child ∈ node.children,
    child.content.isText → node.content.isEmphasis
  leaf : ∀ node ∈ Node.preorderForest forest, node.content.isLeaf → node.children = []
  known : ∀ node ∈ Node.preorderForest forest,
    (∀ raw, node.content ≠ .expression raw) ∧ node.content ≠ .unknown
  tag : ∀ node ∈ Node.preorderForest forest, ∀ tag value? attributes,
    node.content = .element tag value? attributes → tag ∈ proseTags
  component : ∀ node ∈ Node.preorderForest forest, ∀ name props,
    node.content = .component name props → name ∉ reserved
  span : ∀ node ∈ Node.preorderForest forest, node.span?.isSome

/-- The form of a forest follows from the form of its roots. -/
theorem WellFormed.of_shaped {forest : List Node}
    (hforest : ∀ node ∈ forest, node.Shaped ∧ node.content.IsBlock) : WellFormed forest := by
  have hshaped : ∀ node ∈ Node.preorderForest forest, node.Shaped := by
    intro node hnode
    obtain ⟨root, hroot, hbelow⟩ := Node.mem_preorderForest.mp hnode
    exact Node.forall_mem_preorder (fun _ h _ => h.child) (hforest root hroot).1 hbelow
  refine ⟨?_, ?_, ?_, ?_, ?_, ?_, ?_, ?_, ?_, ?_, ?_, ?_⟩
  · intro node hnode hlist
    obtain ⟨hne, hitems⟩ := (hshaped node hnode).items (Content.role?_eq_list_iff.mpr hlist)
    exact ⟨hne, fun child hchild => Content.role?_eq_item_iff.mp (hitems child hchild)⟩
  · intro node hnode
    rw [← Bool.not_eq_true, ← Content.role?_eq_item_iff]
    exact (hforest node hnode).2.2
  · intro node hnode child hchild hitem
    exact Content.role?_eq_list_iff.mp
      (((hshaped node hnode).parent_role hchild).1 (Content.role?_eq_item_iff.mpr hitem))
  · intro node hnode hne
    obtain ⟨role, hrole⟩ := (hshaped node hnode).exists_role
    refine Content.mayHold_of_role? hrole ?_ ?_
    · rintro rfl
      exact hne ((hshaped node hnode).children_eq_nil (.inl hrole))
    · rintro rfl
      exact hne ((hshaped node hnode).children_eq_nil (.inr hrole))
  · intro node hnode hemphasis
    obtain ⟨child, hchild, htext⟩ :=
      (hshaped node hnode).emphasis_children (Content.isEmphasis_iff.mp hemphasis)
    exact ⟨child, hchild, Content.isText_iff.mpr htext⟩
  · intro node hnode
    rw [← Bool.not_eq_true, Content.isText_iff]
    exact (hforest node hnode).2.1
  · intro node hnode child hchild htext
    exact Content.isEmphasis_iff.mpr
      (((hshaped node hnode).parent_role hchild).2 (Content.isText_iff.mp htext))
  · intro node hnode hleaf
    exact (hshaped node hnode).children_eq_nil (.inl (Content.isLeaf_iff.mp hleaf))
  · intro node hnode
    obtain ⟨role, hrole⟩ := (hshaped node hnode).exists_role
    constructor
    · intro raw hraw
      simp [hraw, Content.role?] at hrole
    · intro hunknown
      simp [hunknown, Content.role?] at hrole
  · intro node hnode tag value? attributes hcontent
    obtain ⟨role, hrole⟩ := (hshaped node hnode).exists_role
    rw [hcontent] at hrole
    exact Content.mem_proseTags hrole
  · intro node hnode name props hcontent
    obtain ⟨role, hrole⟩ := (hshaped node hnode).exists_role
    rw [hcontent] at hrole
    exact Content.not_mem_reserved hrole
  · exact fun node hnode => (hshaped node hnode).span?_isSome

theorem Document.nodes_shaped (t : Text) :
    ∀ node ∈ (Document.ofText t).nodes, node.Shaped ∧ node.content.IsBlock := by
  obtain ⟨first, body, hlines⟩ := Document.exists_lines t
  by_cases hfirst : Text.trim first = []
  · simp [Document.nodes_of_blank_signature hlines hfirst]
  · rw [Document.ofText_of_lines hlines hfirst]
    exact ((Draft.empty_shaped _).run 1 body).forest

/-- Whatever the text, the forest that is read from it is well formed. -/
theorem Document.nodes_wellFormed (t : Text) : WellFormed (Document.ofText t).nodes :=
  WellFormed.of_shaped (Document.nodes_shaped t)

end ViewMarkup
