import ViewMarkup.Proofs.Document.Families

namespace ViewMarkup

namespace Span

/-- The end of the inner span is not behind that of the outer one. -/
def CoversEnd (outer inner : Span) : Prop :=
  inner.endLine < outer.endLine ∨ inner.endLine = outer.endLine ∧ inner.endColumn ≤ outer.endColumn

instance (outer inner : Span) : Decidable (outer.CoversEnd inner) :=
  inferInstanceAs (Decidable (_ ∨ _))

/-- The inner span neither starts before the outer one nor ends behind it. -/
def Contains (outer inner : Span) : Prop :=
  (outer.startLine < inner.startLine ∨
    outer.startLine = inner.startLine ∧ outer.startColumn ≤ inner.startColumn) ∧ outer.CoversEnd inner

/-- Spans end with their last lines, so which one ends first depends on these lines only. -/
theorem coversEnd_spanAt_iff {lines : List Text} {k l m n : Nat} :
    (spanAt lines k m).CoversEnd (spanAt lines l n) ↔ n ≤ m := by
  simp only [CoversEnd, spanAt]
  constructor
  · omega
  · intro hle
    by_cases hsame : n = m
    · subst hsame
      exact .inr ⟨rfl, le_rfl⟩
    · exact .inl (by omega)

theorem contains_spanAt {lines : List Text} {k l m n : Nat} (hstart : k ≤ l) (hend : n ≤ m) :
    (spanAt lines k m).Contains (spanAt lines l n) := by
  refine ⟨?_, coversEnd_spanAt_iff.mpr hend⟩
  by_cases hsame : k = l
  · subst hsame
    exact .inr ⟨rfl, le_rfl⟩
  · exact .inl (by simp only [spanAt]; omega)

end Span

theorem Encloses.of_le {lines : List Text} {nodes : List Node} {k l m : Nat} {container : Node}
    (hencloses : Encloses lines nodes m k container) (hbefore : k < l) (hle : l ≤ m)
    (hblank : Text.trim (lines.getD l []) ≠ []) : Encloses lines nodes l k container := by
  refine ⟨hencloses.mem, hencloses.isContainer, hencloses.line, hbefore, ?_, ?_⟩
  · intro j hkj hjl hblank
    exact hencloses.isOpen j hkj (by omega) hblank
  · by_cases hsame : l = m
    · exact hsame ▸ hencloses.admits
    · exact hencloses.isOpen l hbefore (by omega) hblank

namespace Document

/-- The node that line `l` was read as. Nothing else is on the line, a child of the node apart. -/
def Opens (lines : List Text) (document : Document) (l : Nat) (node : Node) : Prop :=
  ∃ inList classified faults log,
    SourceLine.read? ⟨lines.getD l [], l, indentAt lines l, inList⟩ = some ⟨some classified, faults, log⟩ ∧
      node.content.head = classified.content ∧
      ∀ other ∈ document.nodesOn l, other = node ∨ other ∈ node.children

/-- A container from line `k` to line `m`, with what is below it and what comes after it. -/
structure ContainerSpans (lines : List Text) (document : Document) (container : Node) (k m : Nat) : Prop where
  opened : Opens lines document k container
  span : container.span? = some (spanAt lines k m)
  last : IsGreatest {l | l = k ∨ Encloses lines document.nodes l k container ∧ Taken lines document l} m
  kept : ∀ fate, HasFate lines document m fate → fate = .attached ∨ fate = .scripted
  below : ∀ node ∈ Node.preorderForest container.children,
    ∃ span, node.span? = some span ∧ (spanAt lines k m).Contains span
  after : ∀ parent? before after, Node.Family document.nodes parent? (before ++ container :: after) →
    ∀ later ∈ after, ∃ span, later.span? = some span ∧ (m : Int) < span.startLine

/-- A container reaches the lines that it encloses. -/
theorem reaches_iff {lines : List Text} {document : Document} {container : Node} {k l : Nat}
    (hcontainer : container.content.isContainer) (hk : container.mark.line? = some (k : Int)) :
    Reaches lines document container l ↔
      Encloses lines document.nodes l k container ∧ Taken lines document l := by
  constructor
  · rintro (@⟨i, hencloses, htaken⟩ | ⟨hnot, _⟩)
    · obtain rfl : i = k := by exact_mod_cast Option.some.inj (hencloses.line.symm.trans hk)
      exact ⟨hencloses, htaken⟩
    · simp [hcontainer] at hnot
  · rintro ⟨hencloses, htaken⟩
    exact .inside hencloses htaken

theorem Extends.start_le {lines : List Text} {document : Document} {node : Node} {k m : Nat}
    (hextends : Extends lines document node k m) : k ≤ m :=
  hextends.last.2 (.inl rfl)

section Read

variable {document : Document} {first : Text} {body : List Text}
  (hnodes : document.nodes = (draft first body).forest)
  (hfaults : document.diagnostics = (draft first body).diagnostics)
  (himports : document.imports = (draft first body).imports)

include hnodes hfaults himports

theorem taken_of_mem {node : Node} (hnode : node ∈ Node.preorderForest document.nodes) {l : Nat}
    (hline : node.mark.line? = some (l : Int)) : Taken (first :: body) document l := by
  have hmem : node ∈ Node.preorderForest (draft first body).forest := hnodes ▸ hnode
  obtain ⟨earlier, raw, later, rfl, rfl⟩ := exists_split (line_pos hmem hline) (line_lt_of_mem hmem hline)
  exact (taken_iff hnodes hfaults himports).mpr (.inl (nodesOn_ne_nil hnode hline))

theorem opens_of_container {container : Node} (hmem : container ∈ Node.preorderForest document.nodes)
    (hcontainer : container.content.isContainer) {k : Nat} (hk : container.mark.line? = some (k : Int)) :
    Opens (first :: body) document k container := by
  have hon : container ∈ document.nodesOn k := List.mem_filter.mpr ⟨hmem, by simp [hk]⟩
  obtain hattached | ⟨_, hnone, _⟩ := taken_of_mem hnodes hfaults himports hmem hk
  · obtain ⟨inList, classified, faults, log, hread, _, node, hcontent, honly⟩ := hattached
    have hsame : container = node ∧ ∀ other ∈ document.nodesOn k, other = node ∨ other ∈ node.children := by
      obtain hone | ⟨child, hchild, hbuiltIn, htwo⟩ := honly
      · rw [hone] at hon ⊢
        exact ⟨List.mem_singleton.mp hon, fun other hother => .inl (List.mem_singleton.mp hother)⟩
      · rw [htwo] at hon ⊢
        have hne : container ≠ child := by
          rintro rfl
          have hnot := hbuiltIn.not_isContainer
          simp [hcontainer] at hnot
        refine ⟨by simpa [hne] using hon, fun other hother => ?_⟩
        obtain rfl | rfl : other = node ∨ other = child := by simpa using hother
        · exact .inl rfl
        · exact .inr hchild
    obtain ⟨rfl, honly⟩ := hsame
    exact ⟨inList, classified, faults, log, hread, hcontent, honly⟩
  · simp [hnone] at hon

/-- What is below a container does not end behind it. -/
theorem end_le_of_below {container node : Node} (hmem : container ∈ Node.preorderForest document.nodes)
    (hcontainer : container.content.isContainer) (hbelow : node ∈ Node.preorderForest container.children)
    {k l m n : Nat} (hextends : Extends (first :: body) document container k m)
    (hnode : Extends (first :: body) document node l n) : n ≤ m := by
  -- a line with a node below the container is the line of the container, or one that it reaches
  have hreaches : ∀ {below : Node} {i : Nat}, below ∈ Node.preorderForest container.children →
      below.mark.line? = some (i : Int) → i ≤ m := by
    intro below i hbelow hi
    have hinside := inside_of_below (hnodes ▸ hmem) hcontainer hextends.line hbelow
    obtain ⟨j, hj, hplaced⟩ := hinside.line
    obtain rfl : i = j := by exact_mod_cast Option.some.inj (hi.symm.trans hj)
    obtain ⟨rfl, _⟩ | hencloses := hplaced
    · exact hextends.start_le
    · have htaken := taken_of_mem hnodes hfaults himports (hnodes ▸ hinside.mem) hi
      exact hextends.last.2 (.inr (.inside (hnodes ▸ hencloses) htaken))
  obtain rfl | ⟨hinner, htaken⟩ | @⟨_, child, hchild, hline⟩ := hnode.last.1
  · exact hreaches hbelow hnode.line
  · have hinside := inside_of_below (hnodes ▸ hmem) hcontainer hextends.line hbelow
    have houter := hinside.encloses hinner.isContainer hinner.line
    have htrans := encloses_trans houter (hnodes ▸ hinner)
    exact hextends.last.2 (.inr (.inside (hnodes ▸ htrans) htaken))
  · exact hreaches (Node.child_mem_preorderForest hbelow hchild) hline

/-- What comes after a container in its family starts behind it. -/
theorem end_lt_of_later {container later : Node} {parent? : Option Node} {before after : List Node}
    (hfamily : Node.Family document.nodes parent? (before ++ container :: after)) (hlater : later ∈ after)
    (hcontainer : container.content.isContainer) {j k m : Nat}
    (hextends : Extends (first :: body) document container k m) (hj : later.mark.line? = some (j : Int)) :
    m < j := by
  have hmem : container ∈ before ++ container :: after := by simp
  have hmem' : later ∈ before ++ container :: after := by simp [hlater]
  have hread : Node.Family (draft first body).forest parent? (before ++ container :: after) := hnodes ▸ hfamily
  obtain ⟨hne, hle⟩ := line_le_of_later hread hlater hextends.line hj
  by_contra hnot
  by_cases hsame : j = k
  · -- on the line of the container there are only its own children
    subst hsame
    obtain ⟨_, _, _, _, _, _, honly⟩ := opens_of_container hnodes hfaults himports (hfamily.subset hmem)
      hcontainer hextends.line
    have hchild := (honly later (List.mem_filter.mpr ⟨hfamily.subset hmem', by simp [hj]⟩)).resolve_left hne
    obtain ⟨_, hchildren⟩ := family_unique hread (.children (hread.subset hmem)) hmem' hchild
    exact not_mem_below (hread.subset hmem) (Node.mem_preorderForest_of_mem (hchildren ▸ hmem))
  · -- the container is still open on the line of the sibling
    obtain rfl | hreaches := hextends.last.1
    · omega
    · have hencloses := ((reaches_iff hcontainer hextends.line).mp hreaches).1
      have hopen := hencloses.of_le (by omega) (by omega) (trim_ne_nil_of_line (hread.subset hmem') hj)
      exact not_mem_family_of_encloses hread hmem (hnodes ▸ hopen) hj hmem'

theorem containerSpans_of_extends {container : Node} (hmem : container ∈ Node.preorderForest document.nodes)
    (hcontainer : container.content.isContainer) {k m : Nat}
    (hextends : Extends (first :: body) document container k m) :
    ContainerSpans (first :: body) document container k m := by
  have hlast := hextends.last
  simp only [reaches_iff hcontainer hextends.line] at hlast
  refine ⟨opens_of_container hnodes hfaults himports hmem hcontainer hextends.line, hextends.span, hlast, ?_, ?_, ?_⟩
  · intro fate hfate
    have htaken : Taken (first :: body) document m := by
      obtain rfl | ⟨_, htaken⟩ := hlast.1
      · exact taken_of_mem hnodes hfaults himports hmem hextends.line
      · exact htaken
    obtain hattached | hscripted := htaken
    · exact .inl (hfate.eq_fateOf.trans hattached.eq_fateOf.symm)
    · exact .inr (hfate.eq_fateOf.trans hscripted.eq_fateOf.symm)
  · intro node hbelow
    have hinside := inside_of_below (hnodes ▸ hmem) hcontainer hextends.line hbelow
    obtain ⟨l, n, hnode⟩ := exists_extends hnodes hfaults himports (hnodes ▸ hinside.mem)
    have hstart := line_le_of_below (hnodes ▸ hmem) hbelow hextends.line hnode.line
    have hend := end_le_of_below hnodes hfaults himports hmem hcontainer hbelow hextends hnode
    exact ⟨_, hnode.span, Span.contains_spanAt hstart hend⟩
  · intro parent? before after hfamily later hlater
    have hmem' := hfamily.subset (List.mem_append_right before (List.mem_cons_of_mem container hlater))
    obtain ⟨l, n, hnode⟩ := exists_extends hnodes hfaults himports hmem'
    have hlt := end_lt_of_later hnodes hfaults himports hfamily hlater hcontainer hextends hnode.line
    exact ⟨_, hnode.span, Int.ofNat_lt.mpr hlt⟩

end Read

/-- A node of a document was read below a signature line. -/
theorem exists_draft {t : Text} {node : Node} (hnode : node ∈ Node.preorderForest (ofText t).nodes) :
    ∃ first body, Text.lines t = first :: body ∧ (ofText t).nodes = (draft first body).forest ∧
      (ofText t).diagnostics = (draft first body).diagnostics ∧ (ofText t).imports = (draft first body).imports := by
  obtain ⟨first, body, hlines⟩ := exists_lines t
  by_cases hfirst : Text.trim first = []
  · rw [nodes_of_blank_signature hlines hfirst] at hnode
    cases hnode
  · have hdocument := ofText_of_lines hlines hfirst
    exact ⟨first, body, hlines, congrArg nodes hdocument, congrArg diagnostics hdocument,
      congrArg imports hdocument⟩

/-- The span of a container starts with the container's own line and ends with the last line that was taken
while the container was open. Blank lines and dropped lines are not taken. So the span contains the
spans of everything below the container and ends before a later sibling starts. -/
theorem container_spans {t : Text} {container : Node}
    (hmem : container ∈ Node.preorderForest (ofText t).nodes) (hcontainer : container.content.isContainer) :
    ∃ k m, ContainerSpans (Text.lines t) (ofText t) container k m := by
  obtain ⟨first, body, hlines, hnodes, hfaults, himports⟩ := exists_draft hmem
  obtain ⟨k, m, hextends⟩ := exists_extends hnodes hfaults himports hmem
  rw [hlines]
  exact ⟨k, m, containerSpans_of_extends hnodes hfaults himports hmem hcontainer hextends⟩

/-- The blank line and the dropped one below the text are not in the span. -/
theorem container_spans_dropped :
    ∃ container ∈ Node.preorderForest (ofText "Page()\n:Card\n  text\n\n  :for\n:Card").nodes,
      container.content.isContainer ∧ container.span? = some ⟨1, 0, 2, 6⟩ ∧
      ∃ k m, ContainerSpans (Text.lines "Page()\n:Card\n  text\n\n  :for\n:Card")
        (ofText "Page()\n:Card\n  text\n\n  :for\n:Card") container k m := by
  have hcard : ∃ container ∈ Node.preorderForest (ofText "Page()\n:Card\n  text\n\n  :for\n:Card").nodes,
      container.content.isContainer ∧ container.span? = some ⟨1, 0, 2, 6⟩ := by
    decide +kernel
  obtain ⟨container, hmem, hcontainer, hspan⟩ := hcard
  exact ⟨container, hmem, hcontainer, hspan, container_spans hmem hcontainer⟩

end Document

end ViewMarkup
