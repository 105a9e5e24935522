import ViewMarkup.Proofs.Document.Extent
import ViewMarkup.Proofs.Line.Styles

namespace ViewMarkup

theorem Content.isList_of_admits {content : Content} {indent : Int} {raw : Text} (hadmits : content.admits indent raw)
    (hindent : indent = Text.indent raw) : content.isList ∧ Text.isItem raw := by
  simp only [admits, hindent, lt_irrefl, decide_false, Bool.false_or, Bool.and_eq_true] at hadmits
  exact hadmits.1

theorem Content.eq_of_head_element {content : Content} {tag : Text} {value? : Option Inline}
    {attributes : Fields Inline} (hhead : content.head = .element tag value? attributes) :
    content = .element tag value? attributes := by
  cases content with
  | element => exact hhead
  | _ => cases hhead

/-- A line has one innermost container. -/
theorem Innermost.unique {lines : List Text} {nodes : List Node} {l : Nat} {parent? parent?' : Option (Nat × Node)}
    (hinnermost : Innermost (Encloses lines nodes l) parent?)
    (hinnermost' : Innermost (Encloses lines nodes l) parent?') : parent? = parent?' := by
  obtain _ | ⟨k, container⟩ := parent?
  · obtain _ | ⟨k', container'⟩ := parent?'
    · rfl
    · exact absurd hinnermost'.1 (hinnermost k' container')
  · obtain _ | ⟨k', container'⟩ := parent?'
    · exact absurd hinnermost.1 (hinnermost' k container)
    · have hlast := hinnermost.2 k' container' hinnermost'.1
      have hlast' := hinnermost'.2 k container hinnermost.1
      obtain rfl : container = container' := by
        obtain hlt | heq := hlast
        · obtain hlt' | heq' := hlast'
          · omega
          · exact heq'
        · exact heq.symm
      have hline := Option.some.inj (hinnermost.1.line.symm.trans hinnermost'.1.line)
      rw [Int.ofNat_inj.mp hline]

/-- A line in the form of an item at the indent of a list is read as one that goes on with the list. -/
theorem read?_lineBelow {lines : List Text} {l k : Nat} {list : Node} (hlist : list.content.isList)
    (hitem : Text.isItem (lines.getD l [])) (hindent : indentAt lines k = indentAt lines l) :
    (lineBelow lines l (some (k, list))).read? = (prose? (Text.trim (lines.getD l [])) true).map .ofNode := by
  have hbelow : lineBelow lines l (some (k, list)) = ⟨lines.getD l [], l, indentAt lines l, true⟩ := by
    rw [lineBelow, hitem, Option.any_some, hlist, hindent, beq_self_eq_true]
    rfl
  rw [hbelow]
  exact SourceLine.read?_eq_prose?_of_item hitem

theorem Content.le_of_admits {content : Content} {indent : Int} {raw : Text} (hadmits : content.admits indent raw) :
    indent ≤ Text.indent raw := by
  simp only [admits, Bool.or_eq_true, decide_eq_true_eq, Bool.and_eq_true, beq_iff_eq] at hadmits
  omega

namespace Document

/-- A line in the form of an item is not blank, and it is there. -/
theorem exists_split_of_isItem {first : Text} {body : List Text} {l : Nat} (hpos : 0 < l)
    (hitem : Text.isItem ((first :: body).getD l [])) :
    ∃ earlier raw later, body = earlier ++ raw :: later ∧ l = (first :: earlier).length ∧ Text.trim raw ≠ [] := by
  have hblank : Text.trim ((first :: body).getD l []) ≠ [] := by
    intro hnil
    rw [Text.isItem, hnil] at hitem
    cases hitem
  have hl : l < (first :: body).length := by
    by_contra hnot
    rw [List.getD_eq_getElem?_getD, List.getElem?_eq_none (Nat.le_of_not_lt hnot)] at hblank
    exact hblank rfl
  obtain ⟨earlier, raw, later, rfl, rfl⟩ := exists_split hpos hl
  rw [getD_line] at hblank
  exact ⟨earlier, raw, later, rfl, rfl, hblank⟩

/-- Of two containers around a line the later one is deeper. -/
theorem indentAt_lt_of_encloses {first raw : Text} {earlier later : List Text} (hblank : Text.trim raw ≠ [])
    {k k' : Nat} {outer inner : Node}
    (houter : Encloses (first :: (earlier ++ raw :: later)) (draft first (earlier ++ raw :: later)).forest
      (first :: earlier).length k outer)
    (hinner : Encloses (first :: (earlier ++ raw :: later)) (draft first (earlier ++ raw :: later)).forest
      (first :: earlier).length k' inner) (hlt : k < k') :
    indentAt (first :: (earlier ++ raw :: later)) k < indentAt (first :: (earlier ++ raw :: later)) k' := by
  have hsorted := (draft_marks_sorted first earlier).filter (Mark.isOpen (first :: earlier ++ [raw]))
  have hdeeper := columns_increasing first earlier hblank
  have hmark := ((encloses_iff hblank).mp houter).2.2
  have hline : ∀ {l : Nat} {container : Node}, container.mark.line? = some (l : Int) →
      (l : Int) ∈ container.mark.head.line? := fun hline => by simpa using hline
  -- marks are in the order of lines, so the mark of the outer container comes first
  obtain ⟨before, after, hsplit⟩ := List.append_of_mem ((encloses_iff hblank).mp hinner).2.2
  rw [hsplit] at hsorted hdeeper hmark
  obtain hbefore | hmark := List.mem_append.mp hmark
  · have hcolumns := (List.pairwise_append.mp hdeeper).2.2 _ hbefore _ List.mem_cons_self
    have houter' : outer.mark.head.column = _ :=
      congrArg (fun start? => (start?.map Prod.snd).getD 0) (start_of_encloses hblank houter)
    have hinner' : inner.mark.head.column = _ :=
      congrArg (fun start? => (start?.map Prod.snd).getD 0) (start_of_encloses hblank hinner)
    rwa [houter', hinner'] at hcolumns
  · obtain hsame | hafter := List.mem_cons.mp hmark
    · have hlines := hline houter.line
      rw [hsame, Option.mem_def.mp (hline hinner.line), Option.mem_some_iff] at hlines
      omega
    · have hle := (List.pairwise_cons.mp (List.pairwise_append.mp hsorted).2.1).1 _ hafter k' (hline hinner.line) k
        (hline houter.line)
      omega

section Read

variable {document : Document} {first : Text} {body : List Text}

/-- The node above the siblings of a line is on an earlier line. -/
theorem not_mem_of_siblings {l : Nat} {content : Content} {parent? : Option (Nat × Node)} {siblings : List Node}
    (hinnermost : Innermost (Encloses (first :: body) (draft first body).forest l) parent?)
    (hsiblings : Siblings (draft first body).forest l content parent? siblings)
    {node : Node} (hnode : node ∈ Node.preorderForest (draft first body).forest)
    (hline : node.mark.line? = some (l : Int)) {child : Node} (hchild : child ∈ siblings) :
    child ∉ node.children := by
  intro hbelow
  have hfamily : Node.Family (draft first body).forest (some node) node.children := .children hnode
  cases hsiblings with
  | root => cases (family_unique hfamily .roots hbelow hchild).1
  | inside =>
    obtain rfl := Option.some.inj (family_unique hfamily (.children hinnermost.1.mem) hbelow hchild).1
    have hbefore := hinnermost.1.before
    have hsame := Int.ofNat_inj.mp (Option.some.inj (hline.symm.trans hinnermost.1.line))
    omega
  | item _ _ hlast =>
    have hitem := Node.child_mem_preorderForest hinnermost.1.mem hlast.mem
    obtain rfl := Option.some.inj (family_unique hfamily (.children hitem) hbelow hchild).1
    obtain ⟨line, hline', hlt, _⟩ := hlast.last
    obtain rfl := Option.some.inj (hline.symm.trans hline')
    omega

variable (hnodes : document.nodes = (draft first body).forest)
  (hfaults : document.diagnostics = (draft first body).diagnostics)
  (himports : document.imports = (draft first body).imports)

include hnodes hfaults himports

/-- A node that a line gives stands alone on its line, or with its built-in child. -/
theorem nodesOn_of_siblings {l : Nat} {content : Content} {parent? : Option (Nat × Node)} {siblings : List Node}
    (hinnermost : Innermost (Encloses (first :: body) document.nodes l) parent?)
    (hsiblings : Siblings document.nodes l content parent? siblings) {child : Node} (hchild : child ∈ siblings)
    (hline : child.mark.line? = some (l : Int)) :
    document.nodesOn l = [child] ∨
      ∃ below ∈ child.children, child.BuiltIn below ∧ document.nodesOn l = [child, below] := by
  obtain ⟨node?, hfamily⟩ := hsiblings.exists_family (by
    rintro ⟨k, container⟩ rfl
    exact hinnermost.1.mem)
  have hmem : child ∈ document.nodesOn l := List.mem_filter.mpr ⟨hfamily.subset hchild, by simp [hline]⟩
  have hread := hfamily.subset hchild
  rw [hnodes] at hread
  obtain ⟨earlier, raw, later, rfl, rfl⟩ := exists_split (line_pos hread hline) (line_lt_of_mem hread hline)
  obtain ⟨fate, hfate⟩ := exists_fate hnodes hfaults himports
  cases fate with
  | blank => exact absurd hmem (by rw [hfate.2.1]; exact List.not_mem_nil)
  | scripted => exact absurd hmem (by rw [hfate.2.1]; exact List.not_mem_nil)
  | dropped => exact absurd hmem (by rw [hfate.1]; exact List.not_mem_nil)
  | attached =>
    obtain ⟨_, _, _, _, _, _, node, _, hone | ⟨below, hbelow, hbuiltIn, htwo⟩⟩ := hfate
    · rw [hone, List.mem_singleton] at hmem
      exact .inl (hmem ▸ hone)
    · rw [htwo, List.mem_cons, List.mem_singleton] at hmem
      obtain rfl | rfl := hmem
      · exact .inr ⟨below, hbelow, hbuiltIn, htwo⟩
      · -- a built-in child would have two parents
        obtain ⟨hnode, hline'⟩ := List.mem_filter.mp (show node ∈ document.nodesOn _ by rw [htwo]; simp)
        rw [hnodes] at hinnermost hsiblings hnode
        exact absurd hbelow (not_mem_of_siblings hinnermost hsiblings hnode (by simpa using hline') hchild)

/-- The one node of an item that is read as prose without anything inside. -/
theorem nodesOn_of_leaf {l : Nat} {parent? : Option (Nat × Node)} {siblings : List Node} {tag : Text}
    {value? : Option Inline} {attributes : Fields Inline}
    (hinnermost : Innermost (Encloses (first :: body) document.nodes l) parent?)
    (hsiblings : Siblings document.nodes l (.element tag value? attributes) parent? siblings)
    {role : Role} (hrole : (Content.element tag value? attributes).role? = some role) (hlist : role ≠ .list)
    (hemphasis : role ≠ .emphasis) {child : Node} (hchild : child ∈ siblings)
    (hline : child.mark.line? = some (l : Int)) (hcontent : child.content.head = .element tag value? attributes) :
    document.nodesOn l = [child] ∧ child.content = .element tag value? attributes := by
  have hsame := Content.eq_of_head_element hcontent
  refine ⟨?_, hsame⟩
  obtain hone | ⟨below, _, ⟨hlist', _⟩ | ⟨hrole', _⟩, _⟩ :=
    nodesOn_of_siblings hnodes hfaults himports hinnermost hsiblings hchild hline
  · exact hone
  · rw [hsame, ← Content.role?_eq_list_iff, hrole, Option.some.injEq] at hlist'
    exact absurd hlist' hlist
  · rw [hsame, hrole, Option.some.injEq] at hrole'
    exact absurd hrole' hemphasis

/-- A line in the form of an item at the indent of the list around it: it gives an item of the list, or it is nothing
but a style and what is left of it goes into the last item. -/
theorem exists_continued {l k : Nat} {list : Node}
    (hinnermost : Innermost (Encloses (first :: body) document.nodes l) (some (k, list)))
    (hlist : list.content.isList) (hitem : Text.isItem ((first :: body).getD l []))
    (hindent : indentAt (first :: body) k = indentAt (first :: body) l) :
    ∃ node, document.nodesOn l = [node] ∧
      (node ∈ list.children ∧ node.content.isItem ∧
          (∀ css, ¬ IsBareStyle css (Text.trim ((first :: body).getD l []))) ∨
        ∃ css item, IsBareStyle css (Text.trim ((first :: body).getD l [])) ∧ LastItem list l item ∧
          node ∈ item.children ∧ node.content = .element "p" (some (.text "-")) [("style".toList, .text css)]) := by
  have hread := read?_lineBelow hlist hitem hindent
  obtain ⟨earlier, raw, later, rfl, rfl, hblank⟩ :=
    exists_split_of_isItem (Nat.zero_lt_of_lt hinnermost.1.before) hitem
  rw [getD_line] at hitem hread ⊢
  obtain ⟨parent?, hinnermost', hplaced⟩ := exists_placed hnodes himports hblank
  obtain rfl := hinnermost'.unique hinnermost
  have hprose := prose?_of_item (Text.trim_trim raw) hitem
  cases hplaced with
  | hoisted hscript =>
    obtain ⟨_, _, hscript⟩ := Content.exists_of_isScript hscript
    simp [hscript, Content.isList] at hlist
  | captured hscript => simp [hscript, Content.isList] at hlist
  | dropped _ hdropped =>
    rw [hread] at hdropped
    obtain ⟨_, _, hnone⟩ := Option.map_eq_some_iff.mp hdropped
    cases hnone
  | attached _ hattached hsiblings hchild hline hcontent =>
    rw [hread] at hattached
    obtain ⟨node, hnode, hsome⟩ := Option.map_eq_some_iff.mp hattached
    cases hsome
    obtain ⟨value?, attributes, hitem', hbare⟩ | ⟨css, hbare, hparagraph⟩ := hprose
    · obtain rfl := Option.some.inj (hnode.symm.trans hitem')
      obtain ⟨hon, hsame⟩ := nodesOn_of_leaf hnodes hfaults himports hinnermost hsiblings rfl (by decide)
        (by decide) hchild hline hcontent
      refine ⟨_, hon, .inl ⟨?_, by rw [hsame]; rfl, hbare⟩⟩
      cases hsiblings with
      | inside => exact hchild
      | item _ hnot => cases hnot
    · obtain rfl := Option.some.inj (hnode.symm.trans hparagraph)
      obtain ⟨hon, hsame⟩ := nodesOn_of_leaf hnodes hfaults himports hinnermost hsiblings rfl (by decide)
        (by decide) hchild hline hcontent
      cases hsiblings with
      | inside hkeeps => cases hkeeps hlist
      | item _ _ hlast => exact ⟨_, hon, .inr ⟨css, _, hbare, hlast, hchild, hsame⟩⟩

end Read

/-- A container around a line at the indent of the line is the innermost one. -/
theorem innermost_of_indentAt {t : Text} {l k : Nat} {container : Node}
    (hencloses : Encloses (Text.lines t) (ofText t).nodes l k container)
    (hindent : indentAt (Text.lines t) k = indentAt (Text.lines t) l) :
    Innermost (Encloses (Text.lines t) (ofText t).nodes l) (some (k, container)) := by
  obtain ⟨_, hitem⟩ := Content.isList_of_admits hencloses.admits hindent
  obtain ⟨first, body, hlines, hnodes, _, _⟩ := exists_draft hencloses.mem
  rw [hlines] at hencloses hindent hitem ⊢
  obtain ⟨earlier, raw, later, rfl, rfl, hblank⟩ :=
    exists_split_of_isItem (Nat.zero_lt_of_lt hencloses.before) hitem
  rw [hnodes] at hencloses ⊢
  obtain ⟨_ | ⟨k', inner⟩, hinnermost, _⟩ := exists_innermost first earlier later hblank
  · exact absurd hencloses (hinnermost k container)
  obtain hlt | rfl := hinnermost.2 k container hencloses
  · -- a deeper container does not take the line
    have hdeeper := indentAt_lt_of_encloses hblank hencloses hinnermost.1 hlt
    have hadmits := Content.le_of_admits hinnermost.1.admits
    rw [← indentAt] at hadmits
    omega
  · rwa [Int.ofNat_inj.mp (Option.some.inj (hencloses.line.symm.trans hinnermost.1.line))]

/-- A container takes a line at its own indent only if it is a list and the line is in the form of an item. No other
container is then inside of it, and the line gives one node, which is an item of the list unless the line is nothing but
a style. In that case a paragraph with the hyphen goes into the last item of the list. -/
theorem continues_list_iff {t : Text} {l k : Nat} {container : Node}
    (hencloses : Encloses (Text.lines t) (ofText t).nodes l k container)
    (hindent : indentAt (Text.lines t) k = indentAt (Text.lines t) l) :
    Innermost (Encloses (Text.lines t) (ofText t).nodes l) (some (k, container)) ∧
    container.content.isList ∧ Text.isItem ((Text.lines t).getD l []) ∧
    ∃ node, (ofText t).nodesOn l = [node] ∧
      (node ∈ container.children ∧ node.content.isItem ↔
        ∀ css, ¬ IsBareStyle css (Text.trim ((Text.lines t).getD l []))) ∧
      ∀ css, IsBareStyle css (Text.trim ((Text.lines t).getD l [])) →
        node.content = .element "p" (some (.text "-")) [("style".toList, .text css)] ∧
          ∃ item, LastItem container l item ∧ node ∈ item.children := by
  have hinnermost := innermost_of_indentAt hencloses hindent
  obtain ⟨hlist, hitem⟩ := Content.isList_of_admits hencloses.admits hindent
  refine ⟨hinnermost, hlist, hitem, ?_⟩
  obtain ⟨first, body, hlines, hnodes, hfaults, himports⟩ := exists_draft hencloses.mem
  rw [hlines] at hinnermost hindent hitem ⊢
  obtain ⟨node, hon, ⟨hmem, hisItem, hnot⟩ | ⟨css, item, hbare, hlast, hmem, hcontent⟩⟩ :=
    exists_continued hnodes hfaults himports hinnermost hlist hitem hindent
  · exact ⟨node, hon, iff_of_true ⟨hmem, hisItem⟩ hnot, fun css hbare => absurd hbare (hnot css)⟩
  · refine ⟨node, hon, iff_of_false ?_ (fun hnot => hnot css hbare), fun css' hbare' => ?_⟩
    · rintro ⟨_, hisItem⟩
      rw [hcontent] at hisItem
      cases hisItem
    · obtain rfl : css = css' := hbare.unique hbare'
      exact ⟨hcontent, item, hlast, hmem⟩

/-- The item behind a nested list goes on with the outer one, also with a style. -/
theorem continues_list_iff_nested :
    ∃ list, Encloses (Text.lines "Page()\n- a\n  - b\n- c style=\"x\"")
        (ofText "Page()\n- a\n  - b\n- c style=\"x\"").nodes 3 1 list ∧
      ∃ node, (ofText "Page()\n- a\n  - b\n- c style=\"x\"").nodesOn 3 = [node] ∧ node ∈ list.children ∧
        node.content.isItem := by
  have hlist : ∃ list ∈ Node.preorderForest (ofText "Page()\n- a\n  - b\n- c style=\"x\"").nodes,
      list.content.isList ∧ list.content.isContainer ∧ list.mark.line? = some 1 := by
    decide +kernel
  obtain ⟨list, hmem, hlist, hcontainer, hline⟩ := hlist
  have hencloses : Encloses (Text.lines "Page()\n- a\n  - b\n- c style=\"x\"")
      (ofText "Page()\n- a\n  - b\n- c style=\"x\"").nodes 3 1 list := by
    refine ⟨hmem, hcontainer, hline, by decide, fun j hafter hbefore _ => ?_, ?_⟩
    · obtain rfl : j = 2 := by omega
      rw [Content.admits, hlist]
      decide +kernel
    · rw [Content.admits, hlist]
      decide +kernel
  have hbare : ∀ css, ¬ IsBareStyle css "- c style=\"x\"" := by
    intro css hbare
    have hsplit : (splitStyle "- c style=\"x\"").1 = "- c".toList := by decide +kernel
    rw [hbare.splitStyle_eq] at hsplit
    cases hsplit
  obtain ⟨_, _, _, node, hon, hitem, _⟩ := continues_list_iff hencloses (by decide +kernel)
  exact ⟨list, hencloses, node, hon, hitem.mpr hbare⟩

/-- A style right behind the hyphen: the line is in the form of an item, but no item of the list is on it. -/
theorem bare_style_leaves_list :
    ∃ list, Innermost (Encloses (Text.lines "Page()\n- a\n- style=\"x\"") (ofText "Page()\n- a\n- style=\"x\"").nodes 2)
        (some (1, list)) ∧
      list.content.isList ∧ Text.isItem "- style=\"x\"" ∧ ∀ item ∈ list.children, item.mark.line? ≠ some 2 := by
  have hlist : ∃ list ∈ Node.preorderForest (ofText "Page()\n- a\n- style=\"x\"").nodes,
      list.content.isList ∧ list.content.isContainer ∧ list.mark.line? = some 1 ∧
        ∀ item ∈ list.children, item.mark.line? ≠ some 2 := by
    decide +kernel
  obtain ⟨list, hmem, hlist, hcontainer, hline, hitems⟩ := hlist
  have hencloses : Encloses (Text.lines "Page()\n- a\n- style=\"x\"")
      (ofText "Page()\n- a\n- style=\"x\"").nodes 2 1 list := by
    refine ⟨hmem, hcontainer, hline, by decide, by omega, ?_⟩
    rw [Content.admits, hlist]
    decide +kernel
  exact ⟨list, innermost_of_indentAt hencloses (by decide +kernel), hlist, by decide +kernel, hitems⟩

end Document

end ViewMarkup
