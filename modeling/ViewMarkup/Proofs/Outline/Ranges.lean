import ViewMarkup.Proofs.Document.Apart
import ViewMarkup.Proofs.Document.Diagnostics
import ViewMarkup.Proofs.Outline.Symbols
import ViewMarkup.Proofs.Text.Scan

namespace ViewMarkup

/-- Places are in order by line, then by character. -/
instance : LE Position :=
  ⟨fun a b => a.line < b.line ∨ a.line = b.line ∧ a.character ≤ b.character⟩

theorem Position.le_iff {a b : Position} : a ≤ b ↔ a.line < b.line ∨ a.line = b.line ∧ a.character ≤ b.character :=
  Iff.rfl

instance (a b : Position) : Decidable (a ≤ b) :=
  inferInstanceAs (Decidable (_ ∨ _))

/-- The inner range neither starts before the outer one nor ends behind it. -/
def Range.Contains (outer inner : Range) : Prop :=
  outer.start ≤ inner.start ∧ inner.stop ≤ outer.stop

instance (outer inner : Range) : Decidable (outer.Contains inner) :=
  inferInstanceAs (Decidable (_ ∧ _))

theorem Range.contains_refl (range : Range) : range.Contains range :=
  ⟨.inr ⟨rfl, le_rfl⟩, .inr ⟨rfl, le_rfl⟩⟩

namespace Content

theorem isBlock_of_isOutlined {content : Content} (houtlined : content.isOutlined) : content.IsBlock := by
  cases content with
  | loop | guard | state | data => exact ⟨by simp [role?], by simp [role?]⟩
  | _ => cases houtlined

/-- Content with an entry may hold nodes only if it is a container. -/
theorem isContainer_of_mayHold {content : Content} (houtlined : content.isOutlined) (hholds : content.mayHold) :
    content.isContainer := by
  cases content with
  | loop | guard => rfl
  | state | data => cases hholds
  | _ => cases houtlined

end Content

/-- A line that is not blank has a name, be it a signature or not. -/
theorem Signature.name_read_ne_nil {source : Text} (hsource : Text.trim source ≠ []) (line : Int) :
    (read source line).1.name ≠ [] := by
  unfold read
  dsimp only
  split
  · exact hsource
  · rename_i name parameters hparts
    unfold parts? at hparts
    split at hparts
    · cases hparts
    · rename_i name' hname
      split at hparts
      · split at hparts
        · cases hparts
          exact hname
        · cases hparts
      · cases hparts

namespace Outline

/-- Entries side by side are those of nodes of which none is below another. -/
theorem exists_tops (nodes : List Node) :
    ∃ tops, forestSymbols nodes = tops.map symbolOf ∧ (∀ top ∈ tops, top.content.isOutlined) ∧
      (Node.preorderForest tops).Sublist (Node.preorderForest nodes) := by
  induction nodes using Node.forestInduction with
  | nil => exact ⟨[], rfl, by simp, List.Sublist.refl _⟩
  | cons content span? children nodes hchildren hnodes =>
    obtain ⟨inner, hinner, hinnerOutlined, hinnerBelow⟩ := hchildren
    obtain ⟨rest, hrest, hrestOutlined, hrestBelow⟩ := hnodes
    rw [forestSymbols, symbols_eq, hrest, Node.preorderForest]
    cases houtlined : content.isOutlined with
    | true =>
      refine ⟨.mk content span? children :: rest, ?_, List.forall_mem_cons.mpr ⟨houtlined, hrestOutlined⟩, ?_⟩
      · simp [Node.content, houtlined]
      · exact (List.Sublist.refl _).append hrestBelow
    | false =>
      refine ⟨inner ++ rest, ?_, List.forall_mem_append.mpr ⟨hinnerOutlined, hrestOutlined⟩, ?_⟩
      · simp [Node.content, houtlined, Node.children, hinner]
      · rw [Node.preorderForest_append, Node.preorder]
        exact (hinnerBelow.cons _).append hrestBelow

theorem pairwise_apart {nodes tops : List Node}
    (hbelow : (Node.preorderForest tops).Sublist (Node.preorderForest nodes)) :
    tops.Pairwise (Document.Apart nodes) := by
  induction tops with
  | nil => exact List.Pairwise.nil
  | cons top tops ih =>
    rw [Node.preorderForest] at hbelow
    refine List.pairwise_cons.mpr ⟨fun later hlater => ?_, ih ((List.sublist_append_right _ _).trans hbelow)⟩
    exact ((List.Sublist.refl _).append (Node.sublist_preorderForest hlater)).trans hbelow

section Read

variable {t : Text}

theorem lineRange_of_extends {lines : List Text} {document : Document} {node : Node} {k m : Nat}
    (hextends : Document.Extends lines document node k m) : lineRange node.span? = ⟨⟨k, 0⟩, ⟨m, 0⟩⟩ := by
  rw [hextends.span]
  rfl

theorem contains_of_le {k l m n : Nat} (hstart : k ≤ l) (hstop : n ≤ m) :
    Range.Contains ⟨⟨k, 0⟩, ⟨m, 0⟩⟩ ⟨⟨l, 0⟩, ⟨n, 0⟩⟩ := by
  simp only [Range.Contains, Position.le_iff]
  omega

/-- The lines of a node with an entry contain the lines of everything below it. -/
theorem contains_of_below {node below : Node} (hnode : node ∈ Node.preorderForest (Document.ofText t).nodes)
    (houtlined : node.content.isOutlined) (hbelow : below ∈ Node.preorderForest node.children) :
    (lineRange node.span?).Contains (lineRange below.span?) := by
  obtain ⟨first, body, -, hnodes, hfaults, himports⟩ := Document.exists_draft hnode
  have hmem : below ∈ Node.preorderForest (Document.ofText t).nodes :=
    (Node.sublist_of_mem_preorderForest hnode).subset (Node.mem_preorder_iff.mpr (.inr hbelow))
  have hholds : node.content.mayHold := by
    refine (WellFormed.of_shaped (Document.nodes_shaped t)).holder node hnode fun hnil => ?_
    rw [hnil] at hbelow
    cases hbelow
  have hcontainer := Content.isContainer_of_mayHold houtlined hholds
  obtain ⟨k, m, hextends⟩ := Document.exists_extends hnodes hfaults himports hnode
  obtain ⟨l, n, hextends'⟩ := Document.exists_extends hnodes hfaults himports hmem
  rw [lineRange_of_extends hextends, lineRange_of_extends hextends']
  exact contains_of_le (Document.line_le_of_below (hnodes ▸ hnode) hbelow hextends.line hextends'.line)
    (Document.end_le_of_below hnodes hfaults himports hnode hcontainer hbelow hextends hextends')

/-- The lines of a node are lines of the text. -/
theorem contained_in_text {node : Node} (hnode : node ∈ Node.preorderForest (Document.ofText t).nodes) :
    Range.Contains ⟨⟨0, 0⟩, ⟨max (((Text.lines t).length : Int) - 1) 0, 0⟩⟩ (lineRange node.span?) := by
  obtain ⟨first, body, hlines, hnodes, hfaults, himports⟩ := Document.exists_draft hnode
  obtain ⟨k, m, hextends⟩ := Document.exists_extends hnodes hfaults himports hnode
  have hlt := Document.end_lt_length hnodes hnode hextends
  rw [lineRange_of_extends hextends, hlines]
  simp only [Range.Contains, Position.le_iff]
  omega

/-- Of two nodes with entries that are apart the earlier one ends on a line before the later one starts. -/
theorem stop_lt_start_of_apart {earlier later : Node} (hapart : Document.Apart (Document.ofText t).nodes earlier later)
    (hearlier : earlier.content.isOutlined) (hlater : later.content.isOutlined) :
    (lineRange earlier.span?).stop.line < (lineRange later.span?).start.line := by
  have hmem : earlier ∈ Node.preorderForest (Document.ofText t).nodes :=
    hapart.subset (List.mem_append_left _ (Node.mem_preorder_self earlier))
  have hmem' : later ∈ Node.preorderForest (Document.ofText t).nodes :=
    hapart.subset (List.mem_append_right _ (Node.mem_preorder_self later))
  obtain ⟨first, body, -, hnodes, hfaults, himports⟩ := Document.exists_draft hmem
  have hleaf : earlier.content.isContainer = false → earlier.children = [] := by
    intro hnot
    by_contra hchildren
    have hholds := (WellFormed.of_shaped (Document.nodes_shaped t)).holder earlier hmem hchildren
    simp [Content.isContainer_of_mayHold hearlier hholds] at hnot
  obtain ⟨k, m, hextends⟩ := Document.exists_extends hnodes hfaults himports hmem
  obtain ⟨j, n, hextends'⟩ := Document.exists_extends hnodes hfaults himports hmem'
  rw [lineRange_of_extends hextends, lineRange_of_extends hextends']
  exact Int.ofNat_lt.mpr (Document.end_lt_of_apart hnodes hfaults himports hapart
    (Content.isBlock_of_isOutlined hearlier) (Content.isBlock_of_isOutlined hlater) hleaf hextends hextends'.line)

end Read

/-- Entries side by side, all of nodes of one document, do not share a line. -/
theorem pairwise_stop_lt_start {t : Text} {nodes : List Node}
    (hnodes : (Node.preorderForest nodes).Sublist (Node.preorderForest (Document.ofText t).nodes)) :
    (forestSymbols nodes).Pairwise fun earlier later => earlier.range.stop.line < later.range.start.line := by
  obtain ⟨tops, hsymbols, houtlined, hbelow⟩ := exists_tops nodes
  rw [hsymbols, List.pairwise_map]
  refine (pairwise_apart (hbelow.trans hnodes)).imp_of_mem fun hearlier hlater hapart => ?_
  exact stop_lt_start_of_apart hapart (houtlined _ hearlier) (houtlined _ hlater)

/-- An address of a document: whatever the case, it ends in one of the suffixes. -/
def IsAddress (uri : Text) : Prop :=
  ∃ suffix ∈ Document.suffixes, suffix <:+ uri.map Char.toLower

theorem ofResource_of_isAddress {uri : Text} (huri : IsAddress uri) (t : Text) : ofResource t uri = ofText t := by
  obtain ⟨suffix, hsuffix, rest, hrest⟩ := huri
  have hbefore : Text.before? suffix (uri.map Char.toLower) = some rest := Text.before?_eq_some_iff.mpr hrest.symm
  rw [ofResource]
  refine if_pos (List.any_eq_true.mpr ⟨suffix, hsuffix, ?_⟩)
  rw [hbefore]
  rfl

/-- The outline of a text with a first line that is not blank is one entry for its component. -/
theorem exists_root {t first : Text} {body : List Text} (hlines : Text.lines t = first :: body)
    (hfirst : Text.trim first ≠ []) :
    ∃ root, ofText t = [root] ∧ root.range = ⟨⟨0, 0⟩, ⟨max (((Text.lines t).length : Int) - 1) 0, 0⟩⟩ ∧
      root.selection = Range.onLine 0 0 (Signature.read first 0).1.name.length ∧
      root.children = forestSymbols (Document.ofText t).nodes := by
  have hsignature := congrArg Document.signature? (Document.ofText_of_lines hlines hfirst)
  rw [ofText, ofDocument, hsignature]
  exact ⟨_, rfl, rfl, rfl, rfl⟩

theorem exists_of_mem_preorderForest {nodes : List Node} {symbol : Symbol}
    (hsymbol : symbol ∈ Symbol.preorderForest (forestSymbols nodes)) :
    ∃ node ∈ Node.preorderForest nodes, node.content.isOutlined ∧ symbol = symbolOf node := by
  rw [preorderForest_forestSymbols] at hsymbol
  obtain ⟨node, hnode, rfl⟩ := List.mem_map.mp hsymbol
  obtain ⟨hmem, houtlined⟩ := List.mem_filter.mp hnode
  exact ⟨node, hmem, houtlined, rfl⟩

/-- The range of the component runs from the first line to the last one. Every range contains the ranges right
below it, and ranges side by side follow each other without a common line. -/
theorem ranges_nest {t uri first : Text} {body : List Text} (hlines : Text.lines t = first :: body)
    (hfirst : Text.trim first ≠ []) (huri : IsAddress uri) :
    ∃ root, ofResource t uri = [root] ∧ root.range.start.line = 0 ∧
      root.range.stop.line = (Text.lines t).length - 1 ∧
      ∀ symbol ∈ root.preorder, (∀ child ∈ symbol.children, symbol.range.Contains child.range) ∧
        symbol.children.Pairwise fun earlier later => earlier.range.stop.line < later.range.start.line := by
  obtain ⟨root, houtline, hrange, -, hchildren⟩ := exists_root hlines hfirst
  rw [ofResource_of_isAddress huri]
  refine ⟨root, houtline, ?_, ?_, fun symbol hsymbol => ?_⟩
  · rw [hrange]
  · rw [hrange, hlines]
    simp
  · obtain rfl | hbelow := Symbol.mem_preorder_iff.mp hsymbol
    · rw [hchildren, hrange]
      refine ⟨fun child hchild => ?_, pairwise_stop_lt_start (List.Sublist.refl _)⟩
      obtain ⟨node, hnode, -, rfl⟩ := exists_of_mem_preorderForest (Symbol.mem_preorderForest_of_mem hchild)
      exact contained_in_text hnode
    · rw [hchildren] at hbelow
      obtain ⟨node, hnode, houtlined, rfl⟩ := exists_of_mem_preorderForest hbelow
      rw [children_symbolOf]
      refine ⟨fun child hchild => ?_, pairwise_stop_lt_start (Node.Family.children hnode).sublist⟩
      obtain ⟨below, hmem, -, rfl⟩ := exists_of_mem_preorderForest (Symbol.mem_preorderForest_of_mem hchild)
      exact contains_of_below hnode houtlined hmem

/-- A guard in an item of a list that is in a loop, and state behind the loop. -/
def nestedText : Text :=
  "Page()\n:for x in xs\n  - one\n    :if x\n      two\n\n:state n=1"

theorem ranges_nest_list :
    ∃ root, ofResource nestedText "page.LNR" = [root] ∧ root.range.start.line = 0 ∧ root.range.stop.line = 6 ∧
      ∀ symbol ∈ root.preorder, (∀ child ∈ symbol.children, symbol.range.Contains child.range) ∧
        symbol.children.Pairwise fun earlier later => earlier.range.stop.line < later.range.start.line := by
  have hlines : Text.lines nestedText =
      "Page()".toList :: [":for x in xs", "  - one", "    :if x", "      two", "", ":state n=1"].map String.toList := by
    decide +kernel
  exact ranges_nest hlines (by decide +kernel) ⟨".lnr", by decide +kernel, "page", by decide +kernel⟩

/-- Below the component, what is selected is the whole range. The name of the component, which is selected for it,
lies in its range iff the text has more than one line: the range stops where the last line starts. -/
theorem selection_within_range {t uri : Text} {root : Symbol} (hroot : root ∈ ofResource t uri) :
    (∀ symbol ∈ Symbol.preorderForest root.children, symbol.range.Contains symbol.selection) ∧
      (root.range.Contains root.selection ↔ 2 ≤ (Text.lines t).length) := by
  have hroot : root ∈ ofText t := by
    unfold ofResource at hroot
    dsimp only at hroot
    split at hroot
    · exact hroot
    · cases hroot
  obtain ⟨first, body, hlines⟩ := Document.exists_lines t
  have hfirst : Text.trim first ≠ [] := by
    intro hblank
    rw [ofText, Document.ofText_of_blank hlines hblank] at hroot
    cases hroot
  obtain ⟨_, houtline, hrange, hselection, hchildren⟩ := exists_root hlines hfirst
  rw [houtline] at hroot
  obtain rfl := List.mem_singleton.mp hroot
  constructor
  · intro symbol hsymbol
    rw [hchildren] at hsymbol
    obtain ⟨node, -, -, rfl⟩ := exists_of_mem_preorderForest hsymbol
    exact Range.contains_refl _
  · have hname := List.length_pos_iff.mpr (Signature.name_read_ne_nil hfirst 0)
    rw [hrange, hselection, hlines]
    simp only [Range.Contains, Range.onLine, Position.le_iff, List.length_cons, true_and]
    omega

theorem selection_within_range_loop :
    ∃ root ∈ ofResource "Page()\n:for x in xs" "page.lnr",
      (∀ symbol ∈ Symbol.preorderForest root.children, symbol.range.Contains symbol.selection) ∧
        root.range.Contains root.selection := by
  have hlines : Text.lines "Page()\n:for x in xs" = ["Page()".toList, ":for x in xs".toList] := by decide +kernel
  obtain ⟨root, houtline, -⟩ := exists_root hlines (by decide +kernel)
  have hroot : root ∈ ofResource "Page()\n:for x in xs" "page.lnr" := by
    rw [ofResource_of_isAddress ⟨".lnr", by decide +kernel, "page", by decide +kernel⟩, houtline]
    exact List.mem_singleton_self root
  obtain ⟨hbelow, hself⟩ := selection_within_range hroot
  exact ⟨root, hroot, hbelow, hself.mpr (by decide +kernel)⟩

/-- The range of a component that stands alone is empty, so the name is not in it. -/
theorem selection_outside_range :
    ∃ root, ofResource "Page()" "page.lnr" = [root] ∧ root.range = ⟨⟨0, 0⟩, ⟨0, 0⟩⟩ ∧
      root.selection = ⟨⟨0, 0⟩, ⟨0, 4⟩⟩ ∧ ¬ root.range.Contains root.selection := by
  have hlines : Text.lines "Page()" = ["Page()".toList] := by decide +kernel
  obtain ⟨root, houtline, hrange, hselection, -⟩ := exists_root hlines (by decide +kernel)
  refine ⟨root, ?_, hrange, hselection, ?_⟩
  · rw [ofResource_of_isAddress ⟨".lnr", by decide +kernel, "page", by decide +kernel⟩, houtline]
  · rw [hrange, hselection]
    decide +kernel

end Outline

end ViewMarkup
