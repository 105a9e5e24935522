import ViewMarkup.Proofs.Document.Account
import ViewMarkup.Proofs.Document.Contents
import ViewMarkup.Proofs.Line.Expressions

namespace ViewMarkup

theorem Content.expressions_head (content : Content) : content.head.expressions = content.expressions := by
  cases content <;> rfl

/-- A line gives expressions that it writes. -/
theorem Text.gives_writtenOn (raw : Text) : raw.Gives (Content.WrittenOn raw) := by
  rintro line rfl reading hread node hnode below hbelow expression hexpression
  rw [Content.expressions_head] at hexpression
  have hwrites := SourceLine.read?_writtenOn hread node hnode below hbelow expression hexpression
  exact hwrites.of_part (Text.trim_isInfix line.text)

namespace Document

/-- Every mark of a draft was read from the line on which it starts. -/
theorem exists_line_of_mem_marks {P : Text → Content → Prop} (hgives : ∀ raw : Text, raw.Gives (P raw)) (first : Text)
    (body : List Text) : ∀ mark ∈ (draft first body).marks, ∃ (l : Nat) (raw : Text),
      mark.line? = some (l : Int) ∧ (first :: body)[l]? = some raw ∧ P raw mark.content := by
  induction body using List.reverseRecOn with
  | nil => exact fun mark hmark => absurd hmark List.not_mem_nil
  | append_singleton body raw ih =>
    intro mark hmark
    rw [draft_concat] at hmark
    obtain hold | ⟨hline, hcontent⟩ := (draft_shaped first body).mem_marks_step _ (hgives raw) hmark
    · obtain ⟨l, text, hline, hget, hcontent⟩ := ih mark hold
      have hlt := (List.getElem?_eq_some_iff.mp hget).1
      exact ⟨l, text, hline, by rw [← List.cons_append, List.getElem?_append_left hlt, hget], hcontent⟩
    · exact ⟨(first :: body).length, raw, hline, by rw [← List.cons_append]; simp, hcontent⟩

/-- Every node of a document was read from the line on which it starts. -/
theorem exists_line_of_mem {P : Text → Content → Prop} (hgives : ∀ raw : Text, raw.Gives (P raw)) {t : Text}
    {node : Node} (hnode : node ∈ Node.preorderForest (ofText t).nodes) :
    ∃ (l : Nat) (raw : Text), node ∈ (ofText t).nodesOn l ∧ (Text.lines t)[l]? = some raw ∧
      P raw node.content.head := by
  obtain ⟨first, body, hlines⟩ := exists_lines t
  by_cases hfirst : Text.trim first = []
  · rw [nodes_of_blank_signature hlines hfirst] at hnode
    cases hnode
  · have hforest : (ofText t).nodes = (draft first body).forest := by rw [ofText_of_lines hlines hfirst]
    have hmark : node.mark.head ∈ (draft first body).marks := by
      rw [Draft.marks_eq_preorder, ← hforest]
      exact List.mem_map_of_mem hnode
    obtain ⟨l, raw, hline, hget, hcontent⟩ := exists_line_of_mem_marks hgives first body _ hmark
    refine ⟨l, raw, List.mem_filter.mpr ⟨hnode, ?_⟩, hlines ▸ hget, hcontent⟩
    rw [Mark.line?_head] at hline
    rw [hline]
    exact beq_self_eq_true _

/-- Every expression of a document, conditions included, is trimmed and stands on the line of its node; it is empty
only where that line has braces around nothing but blanks. Wherever such braces are read they do give an empty
expression, except that a declaration takes them for an empty object if their blanks are those of JSON. -/
theorem empty_expressions_are_blank_braces (t : Text) :
    (∀ node ∈ Node.preorderForest (ofText t).nodes, ∃ (l : Nat) (line : Text),
      node ∈ (ofText t).nodesOn l ∧ (Text.lines t)[l]? = some line ∧
        ∀ raw ∈ node.content.expressions, Text.trim raw = raw ∧ line.Writes raw ∧
          (raw = [] → ∃ span : Text, span.IsBlankSpan ∧ span <:+: line)) ∧
    ∀ blanks : Text, blanks ≠ [] → blanks.IsGap →
      Inline.ofText ('\x7b' :: (blanks ++ ['\x7d'])) = .expression [] ∧
      Value.property ('\x7b' :: (blanks ++ ['\x7d'])) = .expression [] ∧
      guard? (":if " ++ '\x7b' :: (blanks ++ ['\x7d'])) = some (.guard []) ∧
      (Value.declared ('\x7b' :: (blanks ++ ['\x7d'])) = .ok (.expression []) ↔
        ∃ c ∈ blanks, Json.isGap c = false) := by
  constructor
  · intro node hnode
    obtain ⟨l, line, hon, hget, hwritten⟩ := exists_line_of_mem Text.gives_writtenOn hnode
    refine ⟨l, line, hon, hget, fun raw hraw => ?_⟩
    have hwrites : line.Writes raw := hwritten raw (by rwa [Content.expressions_head])
    refine ⟨hwrites.trim_eq, hwrites, ?_⟩
    rintro rfl
    exact hwrites.exists_blankSpan
  · intro blanks hne hgap
    have hblanks : ∀ c ∈ blanks, isBlank c := fun c hc => (hgap c hc).1
    have hline : '\n' ∉ blanks := fun hmem => (hgap _ hmem).2 rfl
    exact ⟨Inline.ofText_blanks hne hblanks, Value.property_blanks hne hblanks, guard?_blanks hne hblanks hline,
      Value.declared_blanks hne hblanks⟩

/-- Braces around a blank, alone on a line. -/
def blankBraces : Text :=
  "Page()\n\x7b \x7d"

/-- No fault is reported, and the one node of the document has an empty expression. -/
theorem blank_braces_give_empty_expression :
    (ofText blankBraces).diagnostics = [] ∧
      (Node.preorderForest (ofText blankBraces).nodes).map (fun node => node.content.expressions) = [[[]]] := by
  decide +kernel

end Document

end ViewMarkup
