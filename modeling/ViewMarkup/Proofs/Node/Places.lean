import Mathlib.Data.List.Basic
import ViewMarkup.Document.Draft
import ViewMarkup.Proofs.Node.Preorder

namespace ViewMarkup

/-- What a node is and where it starts. -/
structure Mark where
  content : Content
  start? : Option (Int × Int)

/-- The line on which the node starts. -/
def Mark.line? (mark : Mark) : Option Int :=
  mark.start?.map Prod.fst

/-- A node and the node right above it; a root has none. -/
structure Place where
  parent? : Option Mark
  mark : Mark

namespace Node

/-- The mark of a node. -/
def mark (node : Node) : Mark :=
  ⟨node.content, node.span?.map fun span => (span.startLine, span.startColumn)⟩

@[simp] theorem content_mark (node : Node) : node.mark.content = node.content := rfl

mutual

/-- The places of a node and of the nodes below it. -/
def places (parent? : Option Mark) : Node → List Place
  | mk content span? children =>
    ⟨parent?, (mk content span? children).mark⟩ ::
      placesForest (some (mk content span? children).mark) children

/-- The places of a forest. -/
def placesForest (parent? : Option Mark) : List Node → List Place
  | [] => []
  | node :: nodes => places parent? node ++ placesForest parent? nodes

end

theorem places_eq (parent? : Option Mark) (node : Node) :
    places parent? node = ⟨parent?, node.mark⟩ :: placesForest (some node.mark) node.children := by
  cases node
  rfl

theorem placesForest_eq_flatMap (parent? : Option Mark) (nodes : List Node) :
    placesForest parent? nodes = nodes.flatMap (places parent?) := by
  induction nodes with
  | nil => simp [placesForest]
  | cons node nodes ih => simp [placesForest, ih]

theorem placesForest_append (parent? : Option Mark) (first second : List Node) :
    placesForest parent? (first ++ second) = placesForest parent? first ++ placesForest parent? second := by
  simp [placesForest_eq_flatMap]

theorem placesForest_singleton (parent? : Option Mark) (node : Node) :
    placesForest parent? [node] = places parent? node := by
  simp [placesForest_eq_flatMap]

@[simp] theorem mark_append (child node : Node) : (Node.append child node).mark = node.mark := by
  cases node
  rfl

@[simp] theorem mark_extendTo (line column : Int) (node : Node) :
    (node.extendTo line column).mark = node.mark := by
  obtain ⟨content, span?, children⟩ := node
  cases span? <;> rfl

/-- A new child comes after everything else below its parent. -/
theorem places_append (parent? : Option Mark) (child node : Node) :
    places parent? (Node.append child node) = places parent? node ++ places (some node.mark) child := by
  obtain ⟨content, span?, children⟩ := node
  have hchildren : (Node.append child (mk content span? children)).children = children ++ [child] := rfl
  rw [places_eq, mark_append, hchildren, placesForest_append, placesForest_singleton, places_eq]
  rfl

@[simp] theorem places_extendTo (parent? : Option Mark) (line column : Int) (node : Node) :
    places parent? (node.extendTo line column) = places parent? node := by
  rw [places_eq, mark_extendTo, places_eq parent? node]
  cases node
  rfl

/-- The places of a forest are its nodes in order. -/
theorem map_mark_places (parent? : Option Mark) (node : Node) :
    (places parent? node).map Place.mark = node.preorder.map mark := by
  induction node using Node.induction generalizing parent? with
  | mk content span? children ih =>
    rw [places_eq, preorder, List.map_cons, List.map_cons]
    congr 1
    rw [placesForest_eq_flatMap, preorderForest_eq_flatMap, List.map_flatMap, List.map_flatMap]
    exact List.flatMap_congr fun child hchild => ih child hchild _

theorem map_mark_placesForest (parent? : Option Mark) (nodes : List Node) :
    (placesForest parent? nodes).map Place.mark = (preorderForest nodes).map mark := by
  rw [placesForest_eq_flatMap, preorderForest_eq_flatMap, List.map_flatMap, List.map_flatMap]
  exact List.flatMap_congr fun node _ => map_mark_places parent? node

/-- The place of a node below another one is that of a child of a node. -/
theorem mem_places {parent? : Option Mark} {node : Node} {place : Place} :
    place ∈ places parent? node ↔ place = ⟨parent?, node.mark⟩ ∨
      ∃ parent ∈ node.preorder, ∃ child ∈ parent.children, place = ⟨some parent.mark, child.mark⟩ := by
  induction node using Node.induction generalizing parent? with
  | mk content span? children ih =>
    rw [places_eq, List.mem_cons, placesForest_eq_flatMap, List.mem_flatMap]
    apply or_congr_right
    constructor
    · rintro ⟨child, hchild, hplace⟩
      obtain rfl | ⟨parent, hparent, below⟩ := (ih child hchild).mp hplace
      · exact ⟨_, mem_preorder_iff.mpr (.inl rfl), child, hchild, rfl⟩
      · exact ⟨parent, mem_preorder_iff.mpr (.inr (mem_preorderForest.mpr ⟨child, hchild, hparent⟩)), below⟩
    · rintro ⟨parent, hparent, child, hchild, rfl⟩
      obtain rfl | hbelow := mem_preorder_iff.mp hparent
      · exact ⟨child, hchild, (ih child hchild).mpr (.inl rfl)⟩
      · obtain ⟨root, hroot, hbelow⟩ := mem_preorderForest.mp hbelow
        exact ⟨root, hroot, (ih root hroot).mpr (.inr ⟨parent, hbelow, child, hchild, rfl⟩)⟩

/-- The places of a forest are those of its roots and those of the children of its nodes. -/
theorem mem_placesForest {forest : List Node} {place : Place} :
    place ∈ placesForest none forest ↔ (∃ root ∈ forest, place = ⟨none, root.mark⟩) ∨
      ∃ parent ∈ preorderForest forest, ∃ child ∈ parent.children,
        place = ⟨some parent.mark, child.mark⟩ := by
  simp only [placesForest_eq_flatMap, List.mem_flatMap, mem_places, mem_preorderForest]
  constructor
  · rintro ⟨root, hroot, rfl | ⟨parent, hparent, child, hchild, rfl⟩⟩
    · exact .inl ⟨root, hroot, rfl⟩
    · exact .inr ⟨parent, ⟨root, hroot, hparent⟩, child, hchild, rfl⟩
  · rintro (⟨root, hroot, rfl⟩ | ⟨parent, ⟨root, hroot, hparent⟩, child, hchild, rfl⟩)
    · exact ⟨root, hroot, .inl rfl⟩
    · exact ⟨root, hroot, .inr ⟨parent, hparent, child, hchild, rfl⟩⟩

end Node

end ViewMarkup
