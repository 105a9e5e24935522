import ViewMarkup.Proofs.Document.Nesting

namespace ViewMarkup

/-- Whatever is read from the line has a property. -/
def Text.Gives (P : Content → Prop) (raw : Text) : Prop :=
  ∀ line : SourceLine, line.text = raw → ∀ reading, line.read? = some reading →
    ∀ node ∈ reading.node?, ∀ below ∈ node.preorder, P below.content.head

namespace Draft

variable {P : Content → Prop} {draft : Draft}

/-- A mark was there before the line, or it starts on the line and holds what the line gives. -/
theorem Shaped.mem_marks_step (hshaped : draft.Shaped) (line : Int) {raw : Text} (hraw : raw.Gives P) {mark : Mark}
    (hmark : mark ∈ (draft.step line raw).marks) : mark ∈ draft.marks ∨ mark.line? = some line ∧ P mark.content := by
  have hstep := step_cases draft line raw
  generalize draft.step line raw = next at hstep hmark
  cases hstep with
  | blank => exact .inl hmark
  | hoisted =>
    rw [marks_hoisted] at hmark
    exact .inl hmark
  | captured _ _ hframes hcontent =>
    rw [hshaped.marks_withLine hframes hcontent] at hmark
    exact .inl hmark
  | dropped =>
    rw [marks_reporting] at hmark
    exact .inl hmark
  | @attached _ _ node faults log hread hfresh _ =>
    have hnode := hraw _ rfl _ hread node rfl
    rw [marks_attached hfresh, List.mem_append, List.mem_cons, List.mem_map] at hmark
    refine hmark.imp_right ?_
    rintro (rfl | ⟨child, hchild, rfl⟩)
    · refine ⟨congrArg (Option.map Prod.fst) (Node.start?_head_mark (Node.span?_place _ node)), ?_⟩
      simpa using hnode node (Node.mem_preorder_self node)
    · refine ⟨congrArg (Option.map Prod.fst) (Node.start?_head_mark (hfresh.builtIn _ child hchild).2.2), ?_⟩
      obtain ⟨content, span?, children⟩ := node
      obtain ⟨⟨content', span?', children'⟩, hmem, rfl⟩ := List.mem_map.mp hchild
      exact hnode _ (Node.mem_preorder_iff.mpr (.inr (Node.mem_preorderForest_of_mem hmem)))

theorem Shaped.forall_mem_marks_step (hshaped : draft.Shaped) (line : Int) {raw : Text} (hraw : raw.Gives P)
    (hmarks : ∀ mark ∈ draft.marks, P mark.content) : ∀ mark ∈ (draft.step line raw).marks, P mark.content := by
  intro mark hmark
  obtain hold | ⟨-, hnew⟩ := hshaped.mem_marks_step line hraw hmark
  · exact hmarks mark hold
  · exact hnew

theorem Shaped.forall_mem_marks_run (hshaped : draft.Shaped) (line : Int) {lines : List Text}
    (hlines : ∀ raw ∈ lines, raw.Gives P) (hmarks : ∀ mark ∈ draft.marks, P mark.content) :
    ∀ mark ∈ (draft.run line lines).marks, P mark.content := by
  induction lines generalizing draft line with
  | nil => exact hmarks
  | cons raw lines ih =>
    obtain ⟨hraw, hrest⟩ := List.forall_mem_cons.mp hlines
    exact ih (hshaped.step line raw) (line + 1) hrest (hshaped.forall_mem_marks_step line hraw hmarks)

end Draft

/-- A property of whatever the lines of a text give holds of everything in its document. -/
theorem Document.forall_content {P : Content → Prop} {t : Text} (hlines : ∀ raw ∈ Text.lines t, raw.Gives P) :
    ∀ node ∈ Node.preorderForest (ofText t).nodes, P node.content.head := by
  obtain ⟨first, body, hsplit⟩ := exists_lines t
  rw [hsplit] at hlines
  by_cases hfirst : Text.trim first = []
  · rw [nodes_of_blank_signature hsplit hfirst]
    simp [Node.preorderForest]
  · have hmarks : ∀ mark ∈ (draft first body).marks, P mark.content :=
      (Draft.empty_shaped _).forall_mem_marks_run 1 (List.forall_mem_cons.mp hlines).2
        fun mark hmark => absurd hmark List.not_mem_nil
    rw [ofText_of_lines hsplit hfirst]
    rw [Draft.marks_eq_preorder, List.forall_mem_map] at hmarks
    exact hmarks

end ViewMarkup
