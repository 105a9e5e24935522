import ViewMarkup.Document.Basic

namespace ViewMarkup

/-- Whether a text has the form of a list item. -/
def Text.isItem (raw : Text) : Bool :=
  (item? (Text.trim raw)).isSome

/-- The frame under another indent and with another container. -/
def Frame.recast (scope : Int → Int) (item : OpenNode → OpenNode) (frame : Frame OpenNode) :
    Frame OpenNode :=
  ⟨scope frame.indent, frame.isList, item frame.item⟩

namespace Draft

/-- The draft after a line has closed what it closes. -/
def closedBy (draft : Draft) (raw : Text) : Draft :=
  draft.close (Text.indent raw) (Text.isItem raw)

/-- Closing more frames later forgets where the first round stopped. The second test must not look at
what a frame holds, since the first round may have changed that. -/
theorem settle_settle {first second : Frame OpenNode → Bool}
    (hsub : ∀ frame, first frame → second frame)
    (hitem : ∀ (frame : Frame OpenNode) (item : OpenNode), second { frame with item } = second frame)
    (roots : List Node) (pending? : Option Node) (frames : List (Frame OpenNode)) :
    settle second (settle first roots pending? frames).1 none (settle first roots pending? frames).2 =
      settle second roots pending? frames := by
  induction frames generalizing pending? with
  | nil => cases pending? <;> simp [settle]
  | cons frame frames ih =>
    cases hfirst : first frame with
    | true =>
      have hsecond := hsub frame hfirst
      simp only [settle, hfirst, hsecond, if_true]
      exact ih _
    | false => simp [settle, hfirst, hitem]

/-- Closing changes neither the order nor the openings of the frames that stay: it only adds to what
the innermost of them holds. -/
theorem map_settle_frames {α : Type} (key : Frame OpenNode → α)
    (hadopt : ∀ (frame : Frame OpenNode) (node : Node),
      key { frame with item := frame.item.adopt node } = key frame)
    (closes : Frame OpenNode → Bool) (roots : List Node) (pending? : Option Node)
    (frames : List (Frame OpenNode)) :
    (settle closes roots pending? frames).2.map key = (frames.dropWhile closes).map key := by
  induction frames generalizing pending? with
  | nil => simp [settle]
  | cons frame frames ih =>
    cases hcloses : closes frame with
    | true =>
      simp only [settle, hcloses, if_true, List.dropWhile_cons_of_pos]
      exact ih _
    | false =>
      cases pending? with
      | none => simp [settle, hcloses]
      | some node => simp [settle, hcloses, hadopt]

theorem map_close_frames {α : Type} (key : Frame OpenNode → α)
    (hadopt : ∀ (frame : Frame OpenNode) (node : Node),
      key { frame with item := frame.item.adopt node } = key frame)
    (draft : Draft) (indent : Int) (isItem : Bool) :
    (draft.close indent isItem).frames.map key = (Frame.resolve indent isItem draft.frames).map key :=
  map_settle_frames key hadopt _ _ _ _

/-- A change of nodes that respects adoption may be made before or after frames are closed, if the same
frames are closed. -/
theorem settle_recast {scope : Int → Int} {item : OpenNode → OpenNode} {view : Node → Node}
    (hadopt : ∀ (container : OpenNode) (node : Node),
      item (container.adopt node) = (item container).adopt (view node))
    (hnode : ∀ container : OpenNode, (item container).node = view container.node)
    {closes closes' : Frame OpenNode → Bool} {frames : List (Frame OpenNode)}
    (hcloses : ∀ frame ∈ frames, closes' (frame.recast scope item) = closes frame) (roots : List Node)
    (pending? : Option Node) :
    settle closes' (roots.map view) (pending?.map view) (frames.map (Frame.recast scope item)) =
      ((settle closes roots pending? frames).1.map view,
        (settle closes roots pending? frames).2.map (Frame.recast scope item)) := by
  induction frames generalizing pending? with
  | nil => cases pending? <;> simp [settle]
  | cons frame frames ih =>
    obtain ⟨hframe, hrest⟩ := List.forall_mem_cons.mp hcloses
    have hcontainer : (pending?.map view).elim (item frame.item) (item frame.item).adopt =
        item (pending?.elim frame.item frame.item.adopt) := by
      cases pending? with
      | none => rfl
      | some node => exact (hadopt frame.item node).symm
    rw [List.map_cons, settle, settle, hframe]
    dsimp only [Frame.recast]
    rw [hcontainer]
    split
    · rw [hnode]
      exact ih hrest (some _)
    · rfl

/-- A deeper or equal line closes nothing that a later line would have left open. -/
theorem close_close {draft : Draft} {outer inner : Int} {isItem isItem' : Bool}
    (hclosed : ∀ frame : Frame OpenNode, frame.isClosedBy inner isItem → frame.isClosedBy outer isItem') :
    (draft.close inner isItem).close outer isItem' = draft.close outer isItem' := by
  simp only [close]
  rw [settle_settle hclosed (fun _ _ => rfl)]

/-- Closing frames does not change the finished forest. -/
@[simp] theorem forest_close (draft : Draft) (indent : Int) (isItem : Bool) :
    (draft.close indent isItem).forest = draft.forest := by
  simp only [forest, close]
  rw [settle_settle (fun _ _ => rfl) (fun _ _ => rfl)]

end Draft

end ViewMarkup
