import Mathlib.Data.List.Forall2
import ViewMarkup.Proofs.Document.Shape
import ViewMarkup.Proofs.Node.Places

namespace ViewMarkup

namespace OpenNode

/-- The mark of the node below which a container puts a node. -/
def holder (container : OpenNode) (node : Node) : Mark :=
  if container.passesOn node then (container.children.getLast?.map Node.mark).getD container.node.mark
  else container.node.mark

theorem holder_of_keeps {container : OpenNode} {node : Node} (hkeeps : container.passesOn node = false) :
    container.holder node = container.node.mark := by
  simp [holder, hkeeps]

theorem holder_of_passesOn {container : OpenNode} {node last : Node} {items : List Node}
    (hpasses : container.passesOn node) (hchildren : container.children = items ++ [last]) :
    container.holder node = last.mark := by
  simp [holder, hpasses, hchildren]

theorem exists_last_of_passesOn {container : OpenNode} {node : Node} (hpasses : container.passesOn node) :
    ∃ items last, container.children = items ++ [last] := by
  have hne : container.children ≠ [] := by
    intro hnil
    simp [passesOn, hnil] at hpasses
  exact ⟨_, _, (List.dropLast_append_getLast hne).symm⟩

/-- A finished node comes after everything else in its container. -/
theorem places_adopt (parent? : Option Mark) (container : OpenNode) (node : Node) :
    (container.adopt node).node.places parent? =
      container.node.places parent? ++ node.places (some (container.holder node)) := by
  have hmark : (container.adopt node).node.mark = container.node.mark := rfl
  rw [Node.places_eq, hmark, node_children, Node.places_eq parent? container.node, node_children]
  cases hpass : container.passesOn node with
  | false =>
    rw [adopt_children_of_keeps hpass, holder_of_keeps hpass, Node.placesForest_append,
      Node.placesForest_singleton]
    rfl
  | true =>
    obtain ⟨items, last, hchildren⟩ := exists_last_of_passesOn hpass
    rw [adopt_children_of_passesOn hpass hchildren, holder_of_passesOn hpass hchildren, hchildren]
    simp only [Node.placesForest_append, Node.placesForest_singleton, Node.places_append,
      List.cons_append, List.append_assoc]

/-- Making room for a node moves no mark. -/
theorem places_touch (parent? : Option Mark) (container : OpenNode) (node : Node) (line column : Int) :
    (container.touch node line column).node.places parent? = container.node.places parent? := by
  unfold touch
  split
  · rename_i hpass
    obtain ⟨items, last, hchildren⟩ := exists_last_of_passesOn hpass
    rw [Node.places_eq, Node.places_eq parent? container.node, node_children, node_children]
    dsimp only
    rw [hchildren, mapLast_concat, Node.placesForest_append, Node.placesForest_append,
      Node.placesForest_singleton, Node.placesForest_singleton, Node.places_extendTo]
    rfl
  · rfl

theorem touch_content (container : OpenNode) (node : Node) (line column : Int) :
    (container.touch node line column).content = container.content := by
  unfold touch
  split <;> rfl

theorem touch_mark (container : OpenNode) (node : Node) (line column : Int) :
    (container.touch node line column).node.mark = container.node.mark := by
  unfold touch
  split <;> rfl

theorem holder_touch (container : OpenNode) (node other : Node) (line column : Int) :
    (container.touch node line column).holder other = container.holder other := by
  cases htouch : container.passesOn node with
  | false => simp [touch, htouch]
  | true =>
    obtain ⟨items, last, hchildren⟩ := exists_last_of_passesOn htouch
    have htouched : (container.touch node line column).children = items ++ [last.extendTo line column] := by
      simp [touch, htouch, hchildren, mapLast_concat]
    have hpass : (container.touch node line column).passesOn other = container.passesOn other := by
      rw [passesOn, touch_content, htouched, passesOn, hchildren]
      cases items <;> rfl
    cases hother : container.passesOn other with
    | false =>
      rw [holder_of_keeps hother, holder_of_keeps (hpass.trans hother), touch_mark]
    | true =>
      rw [holder_of_passesOn hother hchildren, holder_of_passesOn (hpass.trans hother) htouched,
        Node.mark_extendTo]

end OpenNode

namespace Draft

/-- The mark of the node below which a node would be put. -/
def holder? (frames : List (Frame OpenNode)) (node : Node) : Option Mark :=
  frames.head?.map fun frame => frame.item.holder node

/-- The places of the open containers, from the outside in. -/
def openPlaces : List (Frame OpenNode) → List Place
  | [] => []
  | frame :: frames => openPlaces frames ++ frame.item.node.places (holder? frames frame.item.node)

/-- The places of a draft. -/
def places (draft : Draft) : List Place :=
  Node.placesForest none draft.roots ++ openPlaces draft.frames

/-- Only the content of a node decides where it would be put. -/
theorem holder?_congr {first second : Node} (hcontent : first.content = second.content)
    (frames : List (Frame OpenNode)) : holder? frames first = holder? frames second := by
  simp [holder?, OpenNode.holder, OpenNode.passesOn, hcontent]

/-- Closing every frame, from the inside out, brings the places in order from the outside in. -/
theorem places_settle (roots : List Node) (pending? : Option Node) (frames : List (Frame OpenNode)) :
    Node.placesForest none (settle (fun _ => true) roots pending? frames).1 =
      Node.placesForest none roots ++ openPlaces frames ++
        pending?.elim [] fun node => node.places (holder? frames node) := by
  induction frames generalizing pending? with
  | nil =>
    cases pending? with
    | none => simp [settle, openPlaces]
    | some node => simp [settle, openPlaces, Node.placesForest_append, Node.placesForest_singleton, holder?]
  | cons frame frames ih =>
    -- the frame, with the pending node inside, is what is pending for the frames around it
    simp only [settle, if_true]
    rw [ih, openPlaces]
    cases pending? with
    | none => simp
    | some node =>
      simp only [Option.elim_some]
      rw [OpenNode.places_adopt, holder?_congr (show (frame.item.adopt node).node.content =
        frame.item.node.content from rfl)]
      simp [holder?]

/-- The places of the finished forest are those of the draft. -/
theorem places_forest (draft : Draft) : Node.placesForest none draft.forest = draft.places := by
  rw [forest, places_settle]
  simp [places]

@[simp] theorem places_closedBy (draft : Draft) (raw : Text) : (draft.closedBy raw).places = draft.places := by
  rw [← places_forest, closedBy, forest_close, places_forest]

/-- A node stays whole when what is around it is closed. -/
theorem mem_preorder_adopt {container : OpenNode} {node inner : Node} (hinner : inner ∈ node.preorder) :
    inner ∈ (container.adopt node).node.preorder := by
  refine Node.mem_preorder_iff.mpr (.inr ?_)
  rw [OpenNode.node_children]
  cases hpass : container.passesOn node with
  | false =>
    rw [OpenNode.adopt_children_of_keeps hpass]
    exact Node.mem_preorderForest.mpr ⟨node, by simp, hinner⟩
  | true =>
    obtain ⟨items, last, hchildren⟩ := OpenNode.exists_last_of_passesOn hpass
    rw [OpenNode.adopt_children_of_passesOn hpass hchildren]
    refine Node.mem_preorderForest.mpr ⟨Node.append node last, by simp, Node.mem_preorder_iff.mpr (.inr ?_)⟩
    obtain ⟨content, span?, children⟩ := last
    exact Node.mem_preorderForest.mpr ⟨node, by simp [Node.append, Node.children], hinner⟩

theorem mem_settle_of_pending {pending inner : Node} (hinner : inner ∈ pending.preorder)
    (roots : List Node) (frames : List (Frame OpenNode)) :
    inner ∈ Node.preorderForest (settle (fun _ => true) roots (some pending) frames).1 := by
  induction frames generalizing pending with
  | nil => exact Node.mem_preorderForest.mpr ⟨pending, by simp [settle], hinner⟩
  | cons frame frames ih =>
    simp only [settle, if_true]
    exact ih (mem_preorder_adopt hinner)

/-- The innermost open container is a node of the finished forest as it stands. -/
theorem top_mem_forest {draft : Draft} {frame : Frame OpenNode} {frames : List (Frame OpenNode)}
    (hframes : draft.frames = frame :: frames) : frame.item.node ∈ Node.preorderForest draft.forest := by
  rw [forest, hframes]
  exact mem_settle_of_pending (Node.mem_preorder_iff.mpr (.inl rfl)) draft.roots frames

theorem openPlaces_congr {first second : List (Frame OpenNode)}
    (hframes : List.Forall₂ (fun frame other : Frame OpenNode =>
      other.item.node.content = frame.item.node.content ∧
      (∀ parent?, other.item.node.places parent? = frame.item.node.places parent?) ∧
      ∀ node, other.item.holder node = frame.item.holder node) first second) :
    openPlaces second = openPlaces first ∧ ∀ node, holder? second node = holder? first node := by
  induction hframes with
  | nil => exact ⟨rfl, fun _ => rfl⟩
  | cons hframe _ ih =>
    obtain ⟨hcontent, hplaces, hholder⟩ := hframe
    obtain ⟨hopen, hholders⟩ := ih
    constructor
    · rw [openPlaces, openPlaces, hopen, hholders, holder?_congr hcontent, hplaces]
    · intro node
      simp [holder?, hholder]

/-- Stretching spans moves no mark. -/
theorem openPlaces_extendTo (line column : Int) (draft : Draft) :
    openPlaces (draft.extendTo line column).frames = openPlaces draft.frames ∧
      ∀ node, holder? (draft.extendTo line column).frames node = holder? draft.frames node := by
  apply openPlaces_congr
  rw [Draft.extendTo, List.forall₂_map_right_iff]
  apply List.forall₂_same.mpr
  intro frame _
  refine ⟨rfl, fun parent? => ?_, fun node => rfl⟩
  rw [Node.places_eq, Node.places_eq parent? frame.item.node]
  rfl

@[simp] theorem places_extendTo (line column : Int) (draft : Draft) :
    (draft.extendTo line column).places = draft.places := by
  rw [places, (openPlaces_extendTo line column draft).1]
  rfl

/-- Making room for a node moves no mark. -/
theorem openPlaces_touch (draft : Draft) (node : Node) (line column : Int) :
    openPlaces (draft.touch node line column).frames = openPlaces draft.frames ∧
      ∀ other, holder? (draft.touch node line column).frames other = holder? draft.frames other := by
  unfold touch
  split
  · exact ⟨rfl, fun _ => rfl⟩
  · rename_i frame frames hframes
    rw [hframes]
    apply openPlaces_congr
    refine .cons ⟨OpenNode.touch_content _ _ _ _, ?_, ?_⟩
      (List.forall₂_same.mpr fun _ _ => ⟨rfl, fun _ => rfl, fun _ => rfl⟩)
    · exact fun parent? => OpenNode.places_touch parent? frame.item node line column
    · exact fun other => OpenNode.holder_touch frame.item node other line column

theorem places_adopt (draft : Draft) (node : Node) :
    (draft.adopt node).places = draft.places ++ node.places (holder? draft.frames node) := by
  unfold adopt
  split
  · rename_i hframes
    simp [places, hframes, openPlaces, Node.placesForest_append, Node.placesForest_singleton, holder?]
  · rename_i frame frames hframes
    simp only [places, hframes, openPlaces, OpenNode.places_adopt]
    rw [holder?_congr (show (frame.item.adopt node).node.content = frame.item.node.content from rfl)]
    simp [holder?]

/-- A node that is attached adds its places at the end, whether it is opened or finished. -/
theorem places_attach (draft : Draft) (node : Node) (line : Int) (raw : Text) :
    (draft.attach node line raw).places = draft.places ++
      (node.place (lineSpan line raw)).places (holder? draft.frames (node.place (lineSpan line raw))) := by
  obtain ⟨hopen, hholder⟩ := openPlaces_touch draft (node.place (lineSpan line raw)) line raw.length
  have hroots : (draft.touch (node.place (lineSpan line raw)) line raw.length).roots = draft.roots := by
    unfold touch
    split <;> rfl
  rw [attach_eq]
  split
  · rw [places, push, openPlaces, hopen, hholder, Frame.opened_node, hroots, places]
    simp
  · rw [places_adopt, hholder, places, hopen, hroots, places]

/-- One more line of a script changes the last mark and nothing else. -/
theorem places_withLine {draft : Draft} (hshaped : draft.Shaped) {frame : Frame OpenNode}
    {frames : List (Frame OpenNode)} {signature : Text} {body : List Text}
    (hframes : draft.frames = frame :: frames) (hcontent : frame.item.content = .script signature body)
    (raw : Text) :
    ∃ before parent?, draft.places = before ++ [⟨parent?, frame.item.node.mark⟩] ∧
      places { draft with frames := { frame with item := frame.item.withLine signature body raw } :: frames } =
        before ++ [⟨parent?, (frame.item.withLine signature body raw).node.mark⟩] := by
  have hframe := hshaped.frames frame (by simp [hframes])
  have hchildren := hframe.script_children hcontent
  refine ⟨Node.placesForest none draft.roots ++ openPlaces frames, holder? frames frame.item.node, ?_, ?_⟩
  · rw [places, hframes, openPlaces, Node.places_eq, OpenNode.node_children, hchildren]
    simp [Node.placesForest]
  · rw [places, openPlaces, Node.places_eq, OpenNode.node_children,
      show (frame.item.withLine signature body raw).children = [] from hchildren]
    have hholder : holder? frames (frame.item.withLine signature body raw).node =
        holder? frames frame.item.node := by
      simp [holder?, OpenNode.holder, OpenNode.passesOn, OpenNode.withLine, hcontent, Content.isItem]
    simp [Node.placesForest, hholder]

end Draft

end ViewMarkup
