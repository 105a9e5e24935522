import ViewMarkup.Proofs.Document.Extent
import ViewMarkup.Proofs.Document.WellFormed

namespace ViewMarkup

theorem Node.exists_family {forest : List Node} {node : Node} (hnode : node ∈ preorderForest forest) :
    ∃ parent? family, Node.Family forest parent? family ∧ node ∈ family := by
  obtain ⟨root, hroot, hnode⟩ := mem_preorderForest.mp hnode
  have hall := forall_mem_preorder
    (P := fun node => node ∈ preorderForest forest ∧ ∃ parent? family, Node.Family forest parent? family ∧ node ∈ family)
    (fun node hnode child hchild =>
      ⟨child_mem_preorderForest hnode.1 hchild, some node, node.children, .children hnode.1, hchild⟩)
    ⟨mem_preorderForest_of_mem hroot, none, forest, .roots, hroot⟩ hnode
  exact hall.2

theorem Node.BuiltIn.not_isBlock {node child : Node} (hbuiltIn : node.BuiltIn child) : ¬ child.content.IsBlock := by
  rintro ⟨hnotText, hnotItem⟩
  obtain ⟨_, hitem⟩ | ⟨_, htext⟩ := hbuiltIn
  · exact hnotItem (Content.role?_eq_item_iff.mpr hitem)
  · exact hnotText htext

namespace Document

section Forest

variable {first : Text} {body : List Text}

/-- What is on a line that a container encloses is below the container, unless it is built into another node. -/
theorem below_of_encloses {container node : Node} {k l : Nat}
    (hencloses : Encloses (first :: body) (draft first body).forest l k container)
    (hnode : node ∈ Node.preorderForest (draft first body).forest) (hblock : node.content.IsBlock)
    (hline : node.mark.line? = some (l : Int)) : node ∈ Node.preorderForest container.children := by
  -- The induction is on the line: the innermost container around it is on an earlier line, where it is below the
  -- outer container already or is the container itself.
  induction l using Nat.strong_induction_on generalizing node with
  | h l ih =>
    have hinner {i : Nat} {inner : Node}
        (hinnermost : Innermost (Encloses (first :: body) (draft first body).forest l) (some (i, inner))) :
        ∀ child ∈ inner.children, child ∈ Node.preorderForest container.children := by
      obtain ⟨hin, hlast⟩ := hinnermost
      obtain hlt | rfl := hlast k container hencloses
      · have hopen := hencloses.of_le hlt hin.before.le (trim_ne_nil_of_line hin.mem hin.line)
        have hbelow := ih i hin.before hopen hin.mem (Content.isBlock_of_isContainer hin.isContainer) hin.line
        exact fun child hchild => Node.child_mem_preorderForest hbelow hchild
      · exact fun child hchild => Node.mem_preorderForest_of_mem hchild
    obtain ⟨parent?, family, hfamily, hmem⟩ := Node.exists_family hnode
    obtain ⟨_, _, _, hbuiltIn⟩ | ⟨container?, hinnermost, hsiblings⟩ := exists_siblings hfamily hmem hline
    · exact absurd hblock hbuiltIn.not_isBlock
    · cases hsiblings with
      | root => exact absurd hencloses (hinnermost k container)
      | inside => exact hinner hinnermost node hmem
      | item _ _ hlast => exact Node.child_mem_preorderForest (hinner hinnermost _ hlast.mem) hmem

/-- One node comes before another in order, and neither is below the other. -/
def Apart (forest : List Node) (earlier later : Node) : Prop :=
  (earlier.preorder ++ later.preorder).Sublist (Node.preorderForest forest)

theorem Apart.not_mem {earlier later : Node} (hapart : Apart (draft first body).forest earlier later) :
    later ∉ earlier.preorder := by
  intro hmem
  have hnodup := draft_marks_nodup first body
  rw [Draft.marks_eq_preorder] at hnodup
  have hboth := hnodup.sublist (hapart.map fun node => node.mark.head)
  rw [List.map_append] at hboth
  exact (List.nodup_append.mp hboth).2.2 _ (List.mem_map_of_mem hmem) _
    (List.mem_map_of_mem (Node.mem_preorder_self later)) rfl

theorem Apart.line_le {earlier later : Node} (hapart : Apart (draft first body).forest earlier later) {j k : Nat}
    (hk : earlier.mark.line? = some (k : Int)) (hj : later.mark.line? = some (j : Int)) : k ≤ j := by
  have hsorted := draft_marks_sorted first body
  rw [Draft.marks_eq_preorder, List.pairwise_map] at hsorted
  have hboth := (List.pairwise_append.mp (hsorted.sublist hapart)).2.2
  exact_mod_cast hboth earlier (Node.mem_preorder_self earlier) later (Node.mem_preorder_self later) k hk j hj

/-- A node ends within the lines of the text. -/
theorem end_lt_length {document : Document} (hnodes : document.nodes = (draft first body).forest) {node : Node}
    (hnode : node ∈ Node.preorderForest document.nodes) {k m : Nat}
    (hextends : Extends (first :: body) document node k m) : m < (first :: body).length := by
  obtain rfl | hreaches := hextends.last.1
  · exact line_lt_of_mem (hnodes ▸ hnode) hextends.line
  · exact hreaches.line_lt hnodes hnode

end Forest

section Read

variable {document : Document} {first : Text} {body : List Text}
  (hnodes : document.nodes = (draft first body).forest)
  (hfaults : document.diagnostics = (draft first body).diagnostics)
  (himports : document.imports = (draft first body).imports)

include hnodes hfaults himports

/-- A line gives one node that is not built into another. -/
theorem eq_of_line {node other : Node} (hnode : node ∈ Node.preorderForest document.nodes)
    (hother : other ∈ Node.preorderForest document.nodes) (hblock : node.content.IsBlock)
    (hblock' : other.content.IsBlock) {l : Nat} (hline : node.mark.line? = some (l : Int))
    (hline' : other.mark.line? = some (l : Int)) : node = other := by
  have hon : node ∈ document.nodesOn l := List.mem_filter.mpr ⟨hnode, by simp [hline]⟩
  have hon' : other ∈ document.nodesOn l := List.mem_filter.mpr ⟨hother, by simp [hline']⟩
  obtain ⟨_, _, _, _, _, _, read, _, honly⟩ | ⟨_, hnone, _⟩ := taken_of_mem hnodes hfaults himports hnode hline
  · have hread : ∀ found ∈ document.nodesOn l, found.content.IsBlock → found = read := by
      intro found hfound hblock
      obtain hone | ⟨child, _, hbuiltIn, htwo⟩ := honly
      · rw [hone] at hfound
        exact List.mem_singleton.mp hfound
      · rw [htwo] at hfound
        obtain rfl | rfl : found = read ∨ found = child := by simpa using hfound
        · rfl
        · exact absurd hblock hbuiltIn.not_isBlock
    exact (hread node hon hblock).trans (hread other hon' hblock').symm
  · simp [hnone] at hon

/-- Of two nodes that are apart the earlier one ends before the later one starts, if the earlier one is a container
or has nothing below it. -/
theorem end_lt_of_apart {earlier later : Node} (hapart : Apart document.nodes earlier later)
    (hblock : earlier.content.IsBlock) (hblock' : later.content.IsBlock)
    (hleaf : earlier.content.isContainer = false → earlier.children = []) {j k m : Nat}
    (hextends : Extends (first :: body) document earlier k m) (hj : later.mark.line? = some (j : Int)) : m < j := by
  have hearlier : earlier ∈ Node.preorderForest document.nodes :=
    hapart.subset (List.mem_append_left _ (Node.mem_preorder_self earlier))
  have hlater : later ∈ Node.preorderForest document.nodes :=
    hapart.subset (List.mem_append_right _ (Node.mem_preorder_self later))
  rw [hnodes] at hapart
  have hle := hapart.line_le hextends.line hj
  have hne : k ≠ j := by
    rintro rfl
    obtain rfl := eq_of_line hnodes hfaults himports hearlier hlater hblock hblock' hextends.line hj
    exact hapart.not_mem (Node.mem_preorder_self earlier)
  by_contra hnot
  obtain rfl | @⟨i, hencloses, _⟩ | ⟨hcontainer, hchild, _⟩ := hextends.last.1
  · omega
  · -- the earlier node would still be open on the line of the later one, and so hold it
    obtain rfl : i = k := by exact_mod_cast Option.some.inj (hencloses.line.symm.trans hextends.line)
    rw [hnodes] at hencloses hlater
    have hopen := hencloses.of_le (by omega) (by omega) (trim_ne_nil_of_line hlater hj)
    have hbelow := below_of_encloses hopen hlater hblock' hj
    exact hapart.not_mem (Node.mem_preorder_iff.mpr (.inr hbelow))
  · rw [hleaf hcontainer] at hchild
    cases hchild

end Read

end Document

end ViewMarkup
