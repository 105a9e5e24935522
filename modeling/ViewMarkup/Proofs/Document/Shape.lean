import ViewMarkup.Proofs.Document.Step
import ViewMarkup.Proofs.Node.Shape

namespace ViewMarkup

namespace OpenNode

@[simp] theorem node_content (container : OpenNode) : container.node.content = container.content := rfl

@[simp] theorem node_children (container : OpenNode) : container.node.children = container.children := rfl

/-- A change of the last child leaves the others as they are. -/
theorem mapLast_concat (change : Node → Node) (nodes : List Node) (last : Node) :
    mapLast change (nodes ++ [last]) = nodes ++ [change last] := by
  induction nodes with
  | nil => rfl
  | cons node nodes ih =>
    cases nodes with
    | nil => rfl
    | cons next rest => simpa [mapLast] using ih

/-- A view of nodes that respects a change of them respects it on the last one. -/
theorem map_mapLast {view change change' : Node → Node}
    (hchange : ∀ node, view (change node) = change' (view node)) (nodes : List Node) :
    (mapLast change nodes).map view = mapLast change' (nodes.map view) := by
  induction nodes with
  | nil => rfl
  | cons node nodes ih =>
    cases nodes with
    | nil => simp [mapLast, hchange]
    | cons next nodes => simpa [mapLast] using ih

theorem adopt_children_of_keeps {container : OpenNode} {node : Node}
    (hkeeps : container.passesOn node = false) :
    (container.adopt node).children = container.children ++ [node] := by
  simp [adopt, hkeeps]

theorem adopt_children_of_passesOn {container : OpenNode} {node last : Node} {items : List Node}
    (hpasses : container.passesOn node) (hchildren : container.children = items ++ [last]) :
    (container.adopt node).children = items ++ [Node.append node last] := by
  simp [adopt, hpasses, hchildren, mapLast_concat]

end OpenNode

/-- What an open container is: a node with the form of a container. -/
structure Frame.Shaped (frame : Frame OpenNode) : Prop where
  node : frame.item.node.Shaped
  isContainer : frame.item.content.isContainer
  isList : frame.isList = frame.item.content.isList

/-- An open list has a last item. -/
theorem Frame.Shaped.exists_last {frame : Frame OpenNode} (hshaped : frame.Shaped)
    (hlist : frame.item.content.isList) :
    ∃ items last, frame.item.children = items ++ [last] ∧ last.content.role? = some .item := by
  obtain ⟨hne, hitems⟩ := hshaped.node.items (Content.role?_eq_list_iff.mpr hlist)
  refine ⟨frame.item.children.dropLast, frame.item.children.getLast hne, ?_, ?_⟩
  · exact (List.dropLast_append_getLast hne).symm
  · exact hitems _ (List.getLast_mem hne)

/-- Any node but an item goes below the last item of a list; everything else goes below the container
itself. -/
theorem Frame.Shaped.passesOn_eq {frame : Frame OpenNode} (hshaped : frame.Shaped) (node : Node) :
    frame.item.passesOn node = (frame.item.content.isList && !node.content.isItem) := by
  cases hlist : frame.item.content.isList with
  | false => simp [OpenNode.passesOn, hlist]
  | true =>
    obtain ⟨items, last, hchildren, _⟩ := hshaped.exists_last hlist
    simp [OpenNode.passesOn, hlist, hchildren]

/-- An open container takes a finished node and keeps its form. An item is taken by lists only, and a
script takes nothing. -/
theorem Frame.Shaped.adopt {frame : Frame OpenNode} (hshaped : frame.Shaped)
    (hscript : frame.item.content.isScript = false) {node : Node} (hnode : node.Shaped)
    (hplace : node.content.IsBlock ∨ node.content.role? = some .item ∧ frame.item.content.isList) :
    Frame.Shaped { frame with item := frame.item.adopt node } := by
  refine ⟨?_, hshaped.isContainer, hshaped.isList⟩
  have hpass := hshaped.passesOn_eq node
  obtain ⟨role, hrole⟩ := hshaped.node.exists_role
  rw [OpenNode.node_content] at hrole
  obtain rfl | rfl := Content.role?_of_isContainer hrole hshaped.isContainer hscript
  · have hlist : frame.item.content.isList = false := by
      rw [← Bool.not_eq_true, ← Content.role?_eq_list_iff, hrole]
      simp
    have hblock : node.content.IsBlock := by simpa [hlist] using hplace
    have hkeeps : frame.item.passesOn node = false := by simp [hpass, hlist]
    change (Node.mk _ _ (frame.item.adopt node).children).Shaped
    rw [OpenNode.adopt_children_of_keeps hkeeps]
    exact hshaped.node.append (.inl hrole) hnode hblock
  · have hlist := Content.role?_eq_list_iff.mp hrole
    obtain ⟨items, last, hchildren, hlast⟩ := hshaped.exists_last hlist
    have hframe := hshaped.node
    change (Node.mk _ _ (frame.item.adopt node).children).Shaped
    cases hitem : node.content.isItem with
    | true =>
      rw [OpenNode.adopt_children_of_keeps (by simp [hpass, hitem])]
      refine .list hrole _ (by simp) ?_ ?_
      · exact List.forall_mem_append.mpr ⟨fun _ => hframe.child, List.forall_mem_singleton.mpr hnode⟩
      · exact List.forall_mem_append.mpr
          ⟨(hframe.items hrole).2, List.forall_mem_singleton.mpr (Content.role?_eq_item_iff.mpr hitem)⟩
    | false =>
      have hblock : node.content.IsBlock := by
        simpa [Content.role?_eq_item_iff, hitem] using hplace
      rw [OpenNode.node, hchildren] at hframe
      rw [OpenNode.adopt_children_of_passesOn (by simp [hpass, hlist, hitem]) hchildren]
      have hlastShaped : last.Shaped := hframe.child (by simp [Node.children])
      exact hframe.replace_last hrole (hlastShaped.append (.inr hlast) hnode hblock) (by simpa using hlast)

/-- Stretching the last item to a new line keeps the form of a list. -/
theorem Frame.Shaped.touch {frame : Frame OpenNode} (hshaped : frame.Shaped) (node : Node)
    (line column : Int) : Frame.Shaped { frame with item := frame.item.touch node line column } := by
  unfold OpenNode.touch
  split
  · rename_i hpass
    refine ⟨?_, hshaped.isContainer, hshaped.isList⟩
    have hlist : frame.item.content.isList := by
      simp only [hshaped.passesOn_eq, Bool.and_eq_true] at hpass
      exact hpass.1
    have hrole := Content.role?_eq_list_iff.mpr hlist
    obtain ⟨items, last, hchildren, hlast⟩ := hshaped.exists_last hlist
    have hframe := hshaped.node
    rw [OpenNode.node, hchildren] at hframe
    change (Node.mk _ _ (OpenNode.mapLast _ frame.item.children)).Shaped
    rw [hchildren, OpenNode.mapLast_concat]
    have hlastShaped : last.Shaped := hframe.child (by simp [Node.children])
    exact hframe.replace_last hrole (hlastShaped.extendTo line column) (by simpa using hlast)
  · exact hshaped

/-- A script has no children. -/
theorem Frame.Shaped.script_children {frame : Frame OpenNode} (hshaped : frame.Shaped) {signature : Text}
    {body : List Text} (hcontent : frame.item.content = .script signature body) :
    frame.item.children = [] := by
  have hnode := hshaped.node
  obtain ⟨indent, isList, content, span, children, margin?⟩ := frame
  subst hcontent
  cases hnode with
  | leaf => rfl
  | emphasis hrole | list hrole => cases hrole
  | branch hrole => simp [Content.role?] at hrole

theorem Frame.Shaped.withLine {frame : Frame OpenNode} (hshaped : frame.Shaped) {signature : Text}
    {body : List Text} (hcontent : frame.item.content = .script signature body) (raw : Text) :
    Frame.Shaped { frame with item := frame.item.withLine signature body raw } := by
  have hchildren := hshaped.script_children hcontent
  refine ⟨?_, rfl, ?_⟩
  · rw [OpenNode.node, show (frame.item.withLine signature body raw).children = [] from hchildren]
    exact .leaf rfl _
  · rw [hshaped.isList, hcontent]
    rfl

theorem Frame.opened_shaped {inList : Bool} {node : Node} (hfresh : node.Fresh inList)
    (hcontainer : node.content.isContainer) (line : Int) (raw : Text) :
    (Frame.opened node line raw).Shaped := by
  refine ⟨?_, hcontainer, rfl⟩
  rw [Frame.opened_node]
  exact hfresh.place_shaped _

namespace Draft

/-- The form of a draft: finished nodes stand alone, open containers have the form of nodes, and
nothing is open inside a script. -/
structure Shaped (draft : Draft) : Prop where
  roots : ∀ node ∈ draft.roots, node.Shaped ∧ node.content.IsBlock
  frames : ∀ frame ∈ draft.frames, frame.Shaped
  outer : ∀ frame ∈ draft.frames.tail, frame.item.content.isScript = false

theorem empty_shaped (diagnostics : List Diagnostic) : Shaped { empty with diagnostics } :=
  ⟨by simp [empty], by simp [empty], by simp [empty]⟩

/-- Closing frames keeps the form. A pending node is there only below frames that are not scripts. -/
theorem settle_shaped (closes : Frame OpenNode → Bool) {roots : List Node} {pending? : Option Node}
    {frames : List (Frame OpenNode)}
    (hroots : ∀ node ∈ roots, node.Shaped ∧ node.content.IsBlock)
    (hpending : ∀ node ∈ pending?, node.Shaped ∧ node.content.IsBlock)
    (hframes : ∀ frame ∈ frames, frame.Shaped)
    (houter : ∀ frame ∈ frames.tail, frame.item.content.isScript = false)
    (hhead : pending?.isSome → ∀ frame ∈ frames.head?, frame.item.content.isScript = false)
    (draft : Draft) :
    Shaped { draft with
      roots := (settle closes roots pending? frames).1
      frames := (settle closes roots pending? frames).2 } := by
  -- from the inside out: only the innermost frame may be a script, and nothing is pending there yet
  induction frames generalizing pending? with
  | nil =>
    refine ⟨?_, by simp [settle], by simp [settle]⟩
    simp only [settle, List.mem_append, Option.mem_toList]
    rintro node (hroot | hnode)
    · exact hroots node hroot
    · exact hpending node hnode
  | cons frame frames ih =>
    obtain ⟨hframe, hrest⟩ := List.forall_mem_cons.mp hframes
    have hcontainer : Frame.Shaped { frame with item := pending?.elim frame.item frame.item.adopt } := by
      cases pending? with
      | none => exact hframe
      | some node =>
        obtain ⟨hnode, hblock⟩ := hpending node rfl
        exact hframe.adopt (hhead rfl frame rfl) hnode (.inl hblock)
    simp only [settle]
    cases hcloses : closes frame with
    | true =>
      simp only [if_true]
      apply ih _ hrest (fun outer houterFrame => houter outer (List.mem_of_mem_tail houterFrame))
      · intro _ outer houterFrame
        exact houter outer (List.mem_of_mem_head? houterFrame)
      · intro node hnode
        cases hnode
        exact ⟨hcontainer.node, Content.isBlock_of_isContainer hcontainer.isContainer⟩
    | false => exact ⟨hroots, List.forall_mem_cons.mpr ⟨hcontainer, hrest⟩, houter⟩

theorem Shaped.close {draft : Draft} (hshaped : draft.Shaped) (indent : Int) (isItem : Bool) :
    (draft.close indent isItem).Shaped :=
  settle_shaped _ hshaped.roots (by simp) hshaped.frames hshaped.outer (by simp) draft

theorem Shaped.extendTo {draft : Draft} (hshaped : draft.Shaped) (line column : Int) :
    (draft.extendTo line column).Shaped := by
  refine ⟨hshaped.roots, ?_, ?_⟩
  · intro frame hframe
    obtain ⟨old, hold, rfl⟩ := List.mem_map.mp hframe
    have hframe := hshaped.frames old hold
    exact ⟨hframe.node.extendTo line column, hframe.isContainer, hframe.isList⟩
  · intro frame hframe
    rw [Draft.extendTo, ← List.map_tail] at hframe
    obtain ⟨old, hold, rfl⟩ := List.mem_map.mp hframe
    exact hshaped.outer old hold

theorem Shaped.reporting {draft : Draft} (hshaped : draft.Shaped) (faults : List Diagnostic)
    (log : List LogRecord) : (draft.reporting faults log).Shaped :=
  ⟨hshaped.roots, hshaped.frames, hshaped.outer⟩

theorem Shaped.hoist {draft : Draft} (hshaped : draft.Shaped) (text : Text) : (draft.hoist text).Shaped :=
  ⟨hshaped.roots, hshaped.frames, hshaped.outer⟩

theorem Shaped.touch {draft : Draft} (hshaped : draft.Shaped) (node : Node) (line column : Int) :
    (draft.touch node line column).Shaped := by
  unfold Draft.touch
  split
  · exact hshaped
  · rename_i frame frames hframes
    obtain ⟨hroots, hall, houter⟩ := hshaped
    rw [hframes] at hall houter
    obtain ⟨hframe, hrest⟩ := List.forall_mem_cons.mp hall
    exact ⟨hroots, List.forall_mem_cons.mpr ⟨hframe.touch node line column, hrest⟩, houter⟩

theorem inScript_touch (draft : Draft) (node : Node) (line column : Int) :
    (draft.touch node line column).inScript = draft.inScript := by
  unfold Draft.touch
  split
  · rfl
  · rename_i frame frames hframes
    simp only [inScript, hframes, List.head?_cons, Option.any_some, OpenNode.touch]
    split <;> rfl

/-- The innermost open container is a list. -/
def AtList (draft : Draft) : Prop :=
  ∃ frame ∈ draft.frames.head?, frame.item.content.isList

theorem atList_touch {draft : Draft} (hlist : draft.AtList) (node : Node) (line column : Int) :
    (draft.touch node line column).AtList := by
  obtain ⟨frame, hframe, hlist⟩ := hlist
  unfold Draft.touch
  split
  · rename_i hframes
    simp [hframes] at hframe
  · rename_i head frames hframes
    obtain rfl : head = frame := by simpa [hframes] using hframe
    refine ⟨_, rfl, ?_⟩
    simp only [OpenNode.touch]
    split <;> exact hlist

/-- A node is taken in outside scripts; an item only by a list. -/
theorem Shaped.adopt {draft : Draft} (hshaped : draft.Shaped) (hscript : draft.inScript = false)
    {node : Node} (hnode : node.Shaped)
    (hplace : node.content.IsBlock ∨ node.content.role? = some .item ∧ draft.AtList) :
    (draft.adopt node).Shaped := by
  obtain ⟨hroots, hall, houter⟩ := hshaped
  unfold Draft.adopt
  split
  · rename_i hframes
    have hblock : node.content.IsBlock := by simpa [AtList, hframes] using hplace
    refine ⟨?_, hall, houter⟩
    exact List.forall_mem_append.mpr ⟨hroots, List.forall_mem_singleton.mpr ⟨hnode, hblock⟩⟩
  · rename_i frame frames hframes
    rw [hframes] at hall houter
    obtain ⟨hframe, hrest⟩ := List.forall_mem_cons.mp hall
    have hopen : frame.item.content.isScript = false := by simpa [inScript, hframes] using hscript
    have hplace : node.content.IsBlock ∨ node.content.role? = some .item ∧ frame.item.content.isList := by
      simpa [AtList, hframes] using hplace
    exact ⟨hroots, List.forall_mem_cons.mpr ⟨hframe.adopt hopen hnode hplace, hrest⟩, houter⟩

theorem Shaped.push {draft : Draft} (hshaped : draft.Shaped) (hscript : draft.inScript = false)
    {frame : Frame OpenNode} (hframe : frame.Shaped) : (draft.push frame).Shaped := by
  obtain ⟨hroots, hall, houter⟩ := hshaped
  refine ⟨hroots, List.forall_mem_cons.mpr ⟨hframe, hall⟩, ?_⟩
  change ∀ outer ∈ draft.frames, _
  cases hframes : draft.frames with
  | nil => simp
  | cons head frames =>
    rw [hframes] at houter
    have hopen : head.item.content.isScript = false := by simpa [inScript, hframes] using hscript
    exact List.forall_mem_cons.mpr ⟨hopen, houter⟩

/-- Attaching a node that was read from a line keeps the form, if an item comes only where the innermost
container is a list. -/
theorem Shaped.attach {draft : Draft} (hshaped : draft.Shaped) (hscript : draft.inScript = false)
    {inList : Bool} {node : Node} (hfresh : node.Fresh inList) (hlist : inList = true → draft.AtList)
    (line : Int) (raw : Text) : (draft.attach node line raw).Shaped := by
  rw [attach_eq]
  have htouched := hshaped.touch (node.place (lineSpan line raw)) line raw.length
  have hopen := (inScript_touch draft (node.place (lineSpan line raw)) line raw.length).trans hscript
  cases hcontainer : node.content.isContainer with
  | true =>
    rw [if_pos rfl]
    exact htouched.push hopen (Frame.opened_shaped hfresh hcontainer line raw)
  | false =>
    rw [if_neg (by simp)]
    apply htouched.adopt hopen (hfresh.place_shaped _)
    rw [Node.content_place]
    obtain hblock | ⟨hitem, hin⟩ := hfresh.isBlock_or_item
    · exact .inl hblock
    · exact .inr ⟨hitem, atList_touch (hlist hin) _ _ _⟩

/-- A line is read as the continuation of a list only if the innermost container is a list. -/
theorem Shaped.atList_of_inList {draft : Draft} (hshaped : draft.Shaped) {line : Int} {raw : Text}
    (hin : (draft.sourceLine line raw).inList = true) : draft.AtList := by
  cases hframes : draft.frames with
  | nil => simp [sourceLine, hframes, Frame.inList] at hin
  | cons frame frames =>
    have hframe := hshaped.frames frame (by simp [hframes])
    simp only [sourceLine, hframes, Frame.inList, Bool.and_eq_true] at hin
    exact ⟨frame, by simp [hframes], by rw [← hframe.isList]; exact hin.2.2⟩

/-- Every line keeps the form of a draft. -/
theorem Shaped.step {draft : Draft} (hshaped : draft.Shaped) (line : Int) (raw : Text) :
    (draft.step line raw).Shaped := by
  have hclosed : (draft.closedBy raw).Shaped := hshaped.close _ _
  have hstep := step_cases draft line raw
  generalize draft.step line raw = next at hstep ⊢
  cases hstep with
  | blank hblank => exact hshaped
  | hoisted hblank hscript himport => exact (hclosed.hoist _).extendTo _ _
  | captured hblank himport hframes hcontent =>
    apply Shaped.extendTo
    obtain ⟨hroots, hall, houter⟩ := hclosed
    rw [hframes] at hall houter
    obtain ⟨hframe, hrest⟩ := List.forall_mem_cons.mp hall
    exact ⟨hroots, List.forall_mem_cons.mpr ⟨hframe.withLine hcontent raw, hrest⟩, houter⟩
  | dropped hblank hscript hread hline => exact hclosed.reporting _ _
  | attached hblank hscript hread hfresh hline =>
    apply Shaped.extendTo
    exact (hclosed.reporting _ _).attach hscript hfresh hclosed.atList_of_inList line raw

theorem Shaped.run {draft : Draft} (hshaped : draft.Shaped) (line : Int) (lines : List Text) :
    (draft.run line lines).Shaped := by
  induction lines generalizing draft line with
  | nil => exact hshaped
  | cons raw lines ih => exact ih (hshaped.step line raw) (line + 1)

/-- The nodes of the finished forest have the form of nodes and stand alone. -/
theorem Shaped.forest {draft : Draft} (hshaped : draft.Shaped) :
    ∀ node ∈ draft.forest, node.Shaped ∧ node.content.IsBlock :=
  (settle_shaped (fun _ => true) hshaped.roots (by simp) hshaped.frames hshaped.outer (by simp) draft).roots

end Draft

end ViewMarkup
