import ViewMarkup.Proofs.Document.Extent

namespace ViewMarkup.Document

/-- An item from line `k` to line `m`. It covers what is below it as long as its last child is on one line. -/
structure ItemSpans (lines : List Text) (item : Node) (k m : Nat) : Prop where
  span : item.span? = some (spanAt lines k m)
  last : IsGreatest {l : Nat | l = k ∨ ∃ child ∈ item.children, child.mark.line? = some (l : Int)} m
  covers_iff : (∀ node ∈ Node.preorderForest item.children, ∃ span, node.span? = some span ∧
      (spanAt lines k m).CoversEnd span) ↔
    ∀ last ∈ item.children.getLast?, ∀ span ∈ last.span?, span.endLine = span.startLine

/-- A node of a family is the last one or comes before it. -/
theorem eq_last_or_before {forest family : List Node} {parent? : Option Node} {last node : Node}
    (hfamily : Node.Family forest parent? family) (hlast : family.getLast? = some last) (hnode : node ∈ family) :
    node = last ∨ ∃ before after, Node.Family forest parent? (before ++ node :: after) ∧ last ∈ after := by
  obtain ⟨others, rfl⟩ := List.getLast?_eq_some_iff.mp hlast
  obtain hother | hlast := List.mem_append.mp hnode
  · obtain ⟨before, after, rfl⟩ := List.append_of_mem hother
    rw [List.append_assoc, List.cons_append] at hfamily
    exact .inr ⟨before, after ++ [last], hfamily, by simp⟩
  · exact .inl (List.mem_singleton.mp hlast)

/-- A node that is no container reaches the lines of its children. -/
theorem reaches_iff_child {lines : List Text} {document : Document} {node : Node} {l : Nat}
    (hnot : node.content.isContainer = false) :
    Reaches lines document node l ↔ ∃ child ∈ node.children, child.mark.line? = some (l : Int) := by
  constructor
  · rintro (⟨hencloses, _⟩ | ⟨_, hchild, hline⟩)
    · simp [hencloses.isContainer] at hnot
    · exact ⟨_, hchild, hline⟩
  · rintro ⟨child, hchild, hline⟩
    exact .below hnot hchild hline

section Forest

variable {first : Text} {body : List Text}

/-- Below a node that is neither a container nor an item there is only what was built into the node. -/
theorem builtIn_of_child {node child : Node} (hmem : node ∈ Node.preorderForest (draft first body).forest)
    (hcontainer : node.content.isContainer = false) (hitem : node.content.isItem = false)
    (hchild : child ∈ node.children) : node.BuiltIn child ∧ child.mark.line? = node.mark.line? := by
  obtain ⟨l, hline⟩ := exists_line (Node.child_mem_preorderForest hmem hchild)
  cases holds_of_child hmem hchild hline with
  | builtIn hline' hbuiltIn => exact ⟨hbuiltIn, hline.trans hline'.symm⟩
  | inside hencloses => simp [hencloses.isContainer] at hcontainer
  | item _ hlast _ => simp [hlast.isItem] at hitem

/-- A node of one line: neither a container nor an item. -/
structure OnLine (first : Text) (body : List Text) (line? : Option Int) (node : Node) : Prop where
  mem : node ∈ Node.preorderForest (draft first body).forest
  not_isContainer : node.content.isContainer = false
  not_isItem : node.content.isItem = false
  line : node.mark.line? = line?

/-- What is below an item went there as no item, so only containers go on after their line. -/
theorem onLine_of_item {item child : Node} (hmem : item ∈ Node.preorderForest (draft first body).forest)
    (hitem : item.content.isItem) (hchild : child ∈ item.children)
    (hcontainer : child.content.isContainer = false) : OnLine first body child.mark.line? child := by
  have hnot := Content.not_isContainer_of_isItem hitem
  have hmem' := Node.child_mem_preorderForest hmem hchild
  refine ⟨hmem', hcontainer, ?_, rfl⟩
  obtain ⟨l, hline⟩ := exists_line hmem'
  cases holds_of_child hmem hchild hline with
  | builtIn _ hbuiltIn =>
    obtain ⟨hlist, _⟩ | ⟨hemphasis, _⟩ := hbuiltIn
    · simp [Content.isContainer_of_isList hlist] at hnot
    · rw [Content.role?_eq_item_iff.mpr hitem] at hemphasis
      cases hemphasis
  | inside hencloses => simp [hencloses.isContainer] at hnot
  | item _ _ hnotItem => exact hnotItem

theorem OnLine.child {line? : Option Int} {node child : Node} (hnode : OnLine first body line? node)
    (hchild : child ∈ node.children) : OnLine first body line? child := by
  obtain ⟨hbuiltIn, hline⟩ := builtIn_of_child hnode.mem hnode.not_isContainer hnode.not_isItem hchild
  refine ⟨Node.child_mem_preorderForest hnode.mem hchild, hbuiltIn.not_isContainer, ?_, hline.trans hnode.line⟩
  obtain ⟨hlist, _⟩ | ⟨_, htext⟩ := hbuiltIn
  · have hnot := hnode.not_isContainer
    simp [Content.isContainer_of_isList hlist] at hnot
  · by_contra hitem
    rw [Bool.not_eq_false, ← Content.role?_eq_item_iff, htext] at hitem
    cases hitem

/-- A node of one line ends on this line, and so does everything below it. -/
theorem OnLine.end_eq {document : Document} {node below : Node} {k l n : Nat}
    (hnode : OnLine first body (some (k : Int)) node) (hbelow : below ∈ node.preorder)
    (hextends : Extends (first :: body) document below l n) : n = k := by
  have hbelow := Node.forall_mem_preorder (fun _ hnode _ hchild => hnode.child hchild) hnode hbelow
  obtain rfl | hreaches := hextends.last.1
  · exact_mod_cast Option.some.inj (hextends.line.symm.trans hbelow.line)
  · obtain ⟨child, hchild, hline⟩ := (reaches_iff_child hbelow.not_isContainer).mp hreaches
    exact_mod_cast Option.some.inj (hline.symm.trans (hbelow.child hchild).line)

end Forest

section Read

variable {document : Document} {first : Text} {body : List Text}
  (hnodes : document.nodes = (draft first body).forest)
  (hfaults : document.diagnostics = (draft first body).diagnostics)
  (himports : document.imports = (draft first body).imports)

include hnodes

/-- An item that is not childless ends with the line of its last child. -/
theorem end_eq_of_last {item last : Node} (hmem : item ∈ Node.preorderForest document.nodes)
    (hitem : item.content.isItem) (hlast : item.children.getLast? = some last) {k l m : Nat}
    (hextends : Extends (first :: body) document item k m) (hline : last.mark.line? = some (l : Int)) : m = l := by
  have hread : item ∈ Node.preorderForest (draft first body).forest := hnodes ▸ hmem
  have hnot := Content.not_isContainer_of_isItem hitem
  have hchild := List.mem_of_getLast? hlast
  apply le_antisymm
  · obtain rfl | hreaches := hextends.last.1
    · exact line_le_of_below hread (Node.mem_preorderForest_of_mem hchild) hextends.line hline
    · obtain ⟨child, hother, hline'⟩ := (reaches_iff_child hnot).mp hreaches
      obtain rfl | ⟨before, after, hfamily, hafter⟩ := eq_last_or_before (.children hread) hlast hother
      · exact le_of_eq (by exact_mod_cast Option.some.inj (hline'.symm.trans hline))
      · exact (line_le_of_later hfamily hafter hline' hline).2
  · exact hextends.last.2 (.inr (.below hnot hchild hline))

include hfaults himports

/-- What is below a child of an item does not end behind the child. -/
theorem end_le_of_child {item child node : Node} (hmem : item ∈ Node.preorderForest document.nodes)
    (hitem : item.content.isItem) (hchild : child ∈ item.children) (hnode : node ∈ child.preorder)
    {k l m n : Nat} (hextends : Extends (first :: body) document child k m)
    (hextends' : Extends (first :: body) document node l n) : n ≤ m := by
  have hmem' := Node.child_mem_preorderForest hmem hchild
  cases hcontainer : child.content.isContainer with
  | true =>
    obtain rfl | hbelow := Node.mem_preorder_iff.mp hnode
    · obtain rfl : k = l := by exact_mod_cast Option.some.inj (hextends.line.symm.trans hextends'.line)
      exact hextends.last.2 hextends'.last.1
    · exact end_le_of_below hnodes hfaults himports hmem' hcontainer hbelow hextends hextends'
  | false =>
    have honLine := onLine_of_item (hnodes ▸ hmem) hitem hchild hcontainer
    rw [hextends.line] at honLine
    rw [honLine.end_eq hnode hextends']
    exact hextends.start_le

/-- If the last child of an item is on one line, then no child ends behind the item. -/
theorem child_end_le {item child : Node} (hmem : item ∈ Node.preorderForest document.nodes)
    (hitem : item.content.isItem) (hchild : child ∈ item.children) {k l m n : Nat}
    (hextends : Extends (first :: body) document item k m)
    (hextends' : Extends (first :: body) document child l n)
    (hone : ∀ last ∈ item.children.getLast?, ∀ span ∈ last.span?, span.endLine = span.startLine) : n ≤ m := by
  have hle : l ≤ m := hextends.last.2 (.inr (.below (Content.not_isContainer_of_isItem hitem) hchild hextends'.line))
  cases hcontainer : child.content.isContainer with
  | true =>
    obtain ⟨last, hlast⟩ := Option.isSome_iff_exists.mp (List.getLast?_isSome.mpr (List.ne_nil_of_mem hchild))
    obtain rfl | ⟨before, after, hfamily, hafter⟩ := eq_last_or_before (.children hmem) hlast hchild
    · have hsame := hone child hlast _ hextends'.span
      simp only [spanAt] at hsame
      omega
    · have hmem' := Node.child_mem_preorderForest hmem (List.mem_of_getLast? hlast)
      obtain ⟨j, hj⟩ := exists_line (hnodes ▸ hmem')
      have hlt := end_lt_of_later hnodes hfaults himports hfamily hafter hcontainer hextends' hj
      have hend := end_eq_of_last hnodes hmem hitem hlast hextends hj
      omega
  | false =>
    have honLine := onLine_of_item (hnodes ▸ hmem) hitem hchild hcontainer
    rw [hextends'.line] at honLine
    rwa [honLine.end_eq (Node.mem_preorder_self child) hextends']

theorem itemSpans_of_extends {item : Node} (hmem : item ∈ Node.preorderForest document.nodes)
    (hitem : item.content.isItem) {k m : Nat} (hextends : Extends (first :: body) document item k m) :
    ItemSpans (first :: body) item k m := by
  have hend := hextends.last
  simp only [reaches_iff_child (Content.not_isContainer_of_isItem hitem)] at hend
  refine ⟨hextends.span, hend, ?_, ?_⟩
  · intro hcovers last hlast span hspan
    have hchild := List.mem_of_getLast? hlast
    obtain ⟨l, n, hextends'⟩ :=
      exists_extends hnodes hfaults himports (Node.child_mem_preorderForest hmem hchild)
    obtain ⟨span', hspan', hcovered⟩ := hcovers last (Node.mem_preorderForest_of_mem hchild)
    obtain rfl := Option.some.inj (hextends'.span.symm.trans hspan')
    obtain rfl := Option.some.inj (hextends'.span.symm.trans hspan)
    have hle := Span.coversEnd_spanAt_iff.mp hcovered
    have hsame := end_eq_of_last hnodes hmem hitem hlast hextends hextends'.line
    have hstart := hextends'.start_le
    simp only [spanAt]
    omega
  · intro hone node hnode
    obtain ⟨child, hchild, hbelow⟩ := Node.mem_preorderForest.mp hnode
    have hmem' := Node.child_mem_preorderForest hmem hchild
    obtain ⟨l, n, hextends'⟩ := exists_extends hnodes hfaults himports hmem'
    obtain ⟨i, j, hbelow'⟩ := exists_extends hnodes hfaults himports
      ((Node.sublist_of_mem_preorderForest hmem').subset hbelow)
    refine ⟨_, hbelow'.span, Span.coversEnd_spanAt_iff.mpr ?_⟩
    calc
      j ≤ n := end_le_of_child hnodes hfaults himports hmem hitem hchild hbelow hextends' hbelow'
      _ ≤ m := child_end_le hnodes hfaults himports hmem hitem hchild hextends hextends' hone

end Read

/-- An item ends with the line on which its last child starts, or with its own line if it has no children. Its
span covers everything below it exactly if the last child ends on the line on which it starts. -/
theorem item_spans {t : Text} {item : Node} (hmem : item ∈ Node.preorderForest (ofText t).nodes)
    (hitem : item.content.isItem) : ∃ k m, ItemSpans (Text.lines t) item k m := by
  obtain ⟨first, body, hlines, hnodes, hfaults, himports⟩ := exists_draft hmem
  obtain ⟨k, m, hextends⟩ := exists_extends hnodes hfaults himports hmem
  rw [hlines]
  exact ⟨k, m, itemSpans_of_extends hnodes hfaults himports hmem hitem hextends⟩

theorem item_spans_card :
    ∃ item ∈ Node.preorderForest (ofText "Page()\n- a\n  :Card\n    text\n  end").nodes,
      item.content.isItem ∧ item.span? = some ⟨1, 0, 4, 5⟩ ∧
      ∃ k m, ItemSpans (Text.lines "Page()\n- a\n  :Card\n    text\n  end") item k m := by
  have hitem : ∃ item ∈ Node.preorderForest (ofText "Page()\n- a\n  :Card\n    text\n  end").nodes,
      item.content.isItem ∧ item.span? = some ⟨1, 0, 4, 5⟩ := by
    decide +kernel
  obtain ⟨item, hmem, hitem, hspan⟩ := hitem
  exact ⟨item, hmem, hitem, hspan, item_spans hmem hitem⟩

/-- The text in the last child of an item is behind the end of the item. -/
theorem item_ends_before_text :
    ∃ item ∈ Node.preorderForest (ofText "Page()\n- a\n  :Card\n    text").nodes,
      item.content.isItem ∧ item.span? = some ⟨1, 0, 2, 7⟩ ∧
      ∃ node ∈ Node.preorderForest item.children, node.span? = some ⟨3, 4, 3, 8⟩ ∧
        ¬ Span.CoversEnd ⟨1, 0, 2, 7⟩ ⟨3, 4, 3, 8⟩ := by
  decide +kernel

end ViewMarkup.Document
