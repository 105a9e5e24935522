import ViewMarkup.Proofs.Document.Nesting

namespace ViewMarkup

/-- What a node is and the span that it has so far. -/
structure Stamp where
  mark : Mark
  span? : Option Span

def Stamp.extendTo (line column : Int) (stamp : Stamp) : Stamp :=
  ⟨stamp.mark, stamp.span?.map (Span.extendTo line column)⟩

namespace Node

def stamp (node : Node) : Stamp :=
  ⟨node.mark.head, node.span?⟩

def stamps (nodes : List Node) : List Stamp :=
  (preorderForest nodes).map stamp

theorem stamp_append (child node : Node) : (Node.append child node).stamp = node.stamp := by
  rw [stamp, mark_append]
  cases node
  rfl

theorem stamp_extendTo (line column : Int) (node : Node) :
    (node.extendTo line column).stamp = node.stamp.extendTo line column := by
  rw [stamp, mark_extendTo]
  cases node
  rfl

theorem stamps_append (first second : List Node) : stamps (first ++ second) = stamps first ++ stamps second := by
  rw [stamps, preorderForest_append, List.map_append, stamps, stamps]

theorem stamps_singleton (node : Node) : stamps [node] = node.stamp :: stamps node.children := by
  cases node
  simp [stamps, preorderForest, preorder, children]

end Node

theorem OpenNode.stamps_adopt (container : OpenNode) (node : Node) :
    Node.stamps (container.adopt node).children = Node.stamps container.children ++ Node.stamps [node] := by
  cases hpass : container.passesOn node with
  | false => rw [adopt_children_of_keeps hpass, Node.stamps_append]
  | true =>
    obtain ⟨items, last, hchildren⟩ := exists_last_of_passesOn hpass
    have hbelow : (Node.append node last).children = last.children ++ [node] := by
      cases last
      rfl
    rw [adopt_children_of_passesOn hpass hchildren, hchildren, Node.stamps_append, Node.stamps_append,
      Node.stamps_singleton, Node.stamps_singleton last, Node.stamp_append, hbelow, Node.stamps_append]
    simp

theorem OpenNode.stamp_touch (container : OpenNode) (node : Node) (line column : Int) :
    (container.touch node line column).node.stamp = container.node.stamp := by
  unfold touch
  split <;> rfl

namespace Draft

/-- The stamps of the open containers. -/
def openStamps (draft : Draft) : List Stamp :=
  draft.frames.map fun frame => frame.item.node.stamp

/-- The stamps of the finished nodes. -/
def shutStamps (draft : Draft) : List Stamp :=
  Node.stamps draft.roots ++ draft.frames.flatMap fun frame => Node.stamps frame.item.children

def stamps (draft : Draft) : List Stamp :=
  draft.openStamps ++ draft.shutStamps

theorem stamps_settle (roots : List Node) (pending? : Option Node) (frames : List (Frame OpenNode)) :
    (Node.stamps (settle (fun _ => true) roots pending? frames).1).Perm
      (frames.map (fun frame => frame.item.node.stamp) ++
        (Node.stamps roots ++ frames.flatMap (fun frame => Node.stamps frame.item.children)) ++
        Node.stamps pending?.toList) := by
  induction frames generalizing pending? with
  | nil => simp [settle, Node.stamps_append]
  | cons frame frames ih =>
    have hframe : Node.stamps (some (pending?.elim frame.item frame.item.adopt).node).toList =
        frame.item.node.stamp :: (Node.stamps frame.item.children ++ Node.stamps pending?.toList) := by
      rw [Option.toList_some, Node.stamps_singleton, OpenNode.node_children]
      cases pending? with
      | none => simp [Node.stamps, Node.preorderForest]
      | some node =>
        rw [Option.elim_some, OpenNode.stamps_adopt]
        rfl
    simp only [settle, if_true]
    refine (ih _).trans ?_
    rw [hframe]
    classical
    apply List.perm_iff_count.mpr
    intro stamp
    simp only [List.map_cons, List.flatMap_cons, List.count_append, List.count_cons]
    omega

/-- The nodes of the finished forest are the open containers and the finished nodes. -/
theorem stamps_forest (draft : Draft) : (Node.stamps draft.forest).Perm draft.stamps := by
  have hsettle := stamps_settle draft.roots none draft.frames
  rwa [Option.toList_none, show Node.stamps [] = [] from rfl, List.append_nil] at hsettle

theorem stamps_closedBy (draft : Draft) (raw : Text) : (draft.closedBy raw).stamps.Perm draft.stamps := by
  have hforest := (draft.closedBy raw).stamps_forest
  rw [closedBy, forest_close] at hforest
  exact hforest.symm.trans draft.stamps_forest

theorem map_mark_stamps (draft : Draft) : (draft.stamps.map Stamp.mark).Perm draft.marks := by
  rw [marks_eq_preorder]
  have hmap := draft.stamps_forest.symm.map Stamp.mark
  rwa [Node.stamps, List.map_map] at hmap

/-- A stamp after a line on which the marks with `touched` were stretched. -/
inductive Follows (stamps : List Stamp) (line : Int) (raw : Text) (touched : Mark → Prop) : Stamp → Prop where
  | kept {stamp : Stamp} (hold : stamp ∈ stamps) (hnot : ¬ touched stamp.mark) :
      Follows stamps line raw touched stamp
  | stretched {stamp : Stamp} (hold : stamp ∈ stamps) (htouched : touched stamp.mark) :
      Follows stamps line raw touched (stamp.extendTo line raw.length)
  | new {mark : Mark} (hstart : mark.start? = some (line, (Text.indent raw : Int))) :
      Follows stamps line raw touched ⟨mark, some (lineSpan line raw)⟩

section Touch

variable {draft : Draft} {line : Int} {raw : Text}

/-- An open container is not finished. -/
theorem not_mem_openStamps (hnodup : (draft.stamps.map Stamp.mark).Nodup) {stamp : Stamp}
    (hshut : stamp ∈ draft.shutStamps) : stamp.mark ∉ draft.openStamps.map Stamp.mark := by
  rw [stamps, List.map_append, List.nodup_append] at hnodup
  exact fun hopen => hnodup.2.2 _ hopen _ (List.mem_map_of_mem hshut) rfl

theorem openStamps_extendTo (draft : Draft) (line column : Int) :
    (draft.extendTo line column).openStamps = draft.openStamps.map (Stamp.extendTo line column) := by
  rw [openStamps, openStamps, extendTo, List.map_map, List.map_map]
  rfl

theorem shutStamps_extendTo (draft : Draft) (line column : Int) :
    (draft.extendTo line column).shutStamps = draft.shutStamps := by
  rw [shutStamps, shutStamps, extendTo, List.flatMap_map]
  rfl

theorem follows_extendTo (hnodup : (draft.stamps.map Stamp.mark).Nodup) :
    ∀ stamp ∈ (draft.extendTo line raw.length).stamps,
      Follows draft.stamps line raw (· ∈ draft.openStamps.map Stamp.mark) stamp := by
  rw [stamps, openStamps_extendTo, shutStamps_extendTo]
  refine List.forall_mem_append.mpr ⟨List.forall_mem_map.mpr fun stamp hstamp => ?_, fun stamp hstamp => ?_⟩
  · exact .stretched (List.mem_append_left _ hstamp) (List.mem_map_of_mem hstamp)
  · exact .kept (List.mem_append_right _ hstamp) (not_mem_openStamps hnodup hstamp)

theorem openStamps_touch (draft : Draft) (node : Node) (line column : Int) :
    (draft.touch node line column).openStamps = draft.openStamps := by
  unfold touch
  split
  · rfl
  · rename_i frame frames hframes
    rw [openStamps, openStamps, hframes, List.map_cons, List.map_cons, OpenNode.stamp_touch]

/-- Where a list passes a node on, the stamp of its last item is stretched and the others are as they were. -/
theorem exists_shutStamps_touch {frame : Frame OpenNode} {frames : List (Frame OpenNode)}
    (hframes : draft.frames = frame :: frames) {node : Node} (hpass : frame.item.passesOn node) (column : Int) :
    ∃ before last after, draft.shutStamps = before ++ last :: after ∧
      (draft.touch node line column).shutStamps = before ++ last.extendTo line column :: after ∧
      (holder? draft.frames node).map Mark.head = some last.mark := by
  obtain ⟨items, last, hchildren⟩ := OpenNode.exists_last_of_passesOn hpass
  have hsame : (last.extendTo line column).children = last.children := by
    cases last
    rfl
  refine ⟨Node.stamps draft.roots ++ Node.stamps items, last.stamp,
    Node.stamps last.children ++ frames.flatMap fun frame => Node.stamps frame.item.children, ?_, ?_, ?_⟩
  · simp [shutStamps, hframes, hchildren, Node.stamps_append, Node.stamps_singleton]
  · simp [touch, shutStamps, hframes, OpenNode.touch, hpass, hchildren, OpenNode.mapLast_concat,
      Node.stamps_append, Node.stamps_singleton, Node.stamp_extendTo, hsame]
  · rw [hframes, holder?, List.head?_cons, Option.map_some, OpenNode.holder_of_passesOn hpass hchildren]
    rfl

/-- Making room for a node stretches the item that is to hold it. Where a container holds the node, nothing
is stretched. -/
theorem mem_shutStamps_touch (hnodup : (draft.stamps.map Stamp.mark).Nodup) (node : Node) {column : Int}
    {stamp : Stamp} (hstamp : stamp ∈ (draft.touch node line column).shutStamps) :
    (stamp ∈ draft.shutStamps ∧ (holder? draft.frames node).map Mark.head ≠ some stamp.mark) ∨
      ∃ old ∈ draft.shutStamps, (holder? draft.frames node).map Mark.head = some old.mark ∧
        stamp = old.extendTo line column := by
  cases hframes : draft.frames with
  | nil =>
    rw [touch, hframes] at hstamp
    simp [holder?, hstamp]
  | cons frame frames =>
    rw [← hframes]
    cases hpass : frame.item.passesOn node with
    | false =>
      simp only [touch, hframes, OpenNode.touch, hpass] at hstamp
      have hshut : stamp ∈ draft.shutStamps := by
        rw [shutStamps, hframes]
        exact hstamp
      refine .inl ⟨hshut, fun hheld => not_mem_openStamps hnodup hshut ?_⟩
      rw [hframes, holder?, List.head?_cons, Option.map_some, OpenNode.holder_of_keeps hpass] at hheld
      rw [← Option.some.inj hheld, openStamps, hframes]
      exact List.mem_cons_self
    | true =>
      obtain ⟨before, last, after, hold, hnew, hheld⟩ := exists_shutStamps_touch hframes hpass column
      rw [hnew] at hstamp
      rw [hheld]
      obtain rfl | hother := List.mem_cons.mp (List.perm_middle.mem_iff.mp hstamp)
      · exact .inr ⟨last, by simp [hold], rfl, rfl⟩
      · have hshut : stamp ∈ draft.shutStamps := by
          rw [hold]
          exact List.perm_middle.mem_iff.mpr (List.mem_cons_of_mem _ hother)
        refine .inl ⟨hshut, fun hsame => ?_⟩
        rw [stamps, List.map_append] at hnodup
        have hnodup' := (List.nodup_append.mp hnodup).2.1
        rw [hold, (List.perm_middle.map _).nodup_iff, List.map_cons, List.nodup_cons] at hnodup'
        exact hnodup'.1 (Option.some.inj hsame ▸ List.mem_map_of_mem hother)

theorem mem_stamps_adopt {node : Node} {stamp : Stamp} (hstamp : stamp ∈ (draft.adopt node).shutStamps) :
    stamp ∈ draft.shutStamps ∨ stamp ∈ Node.stamps [node] := by
  unfold adopt at hstamp
  split at hstamp
  · rename_i hframes
    simp only [shutStamps, hframes, Node.stamps_append, List.mem_append] at hstamp ⊢
    tauto
  · rename_i frame frames hframes
    simp only [shutStamps, hframes, List.flatMap_cons, OpenNode.stamps_adopt, List.mem_append] at hstamp ⊢
    tauto

theorem openStamps_adopt (draft : Draft) (node : Node) : (draft.adopt node).openStamps = draft.openStamps := by
  unfold adopt
  split
  · rfl
  · rename_i frame frames hframes
    rw [openStamps, openStamps, hframes]
    rfl

/-- A node that is attached is a new open container or a new finished node. -/
theorem mem_stamps_attach {node : Node} {stamp : Stamp} :
    (stamp ∈ (draft.attach node line raw).openStamps →
      stamp ∈ draft.openStamps ∨ stamp ∈ Node.stamps [node.place (lineSpan line raw)]) ∧
    (stamp ∈ (draft.attach node line raw).shutStamps →
      stamp ∈ (draft.touch (node.place (lineSpan line raw)) line raw.length).shutStamps ∨
        stamp ∈ Node.stamps [node.place (lineSpan line raw)]) := by
  rw [attach_eq]
  split
  · rw [Node.stamps_singleton, ← Frame.opened_node]
    constructor
    · intro hstamp
      rw [← openStamps_touch draft (Frame.opened node line raw).item.node line raw.length]
      simp only [openStamps, push, List.map_cons, List.mem_cons] at hstamp ⊢
      tauto
    · intro hstamp
      simp only [shutStamps, push, List.flatMap_cons, List.mem_append, List.mem_cons,
        OpenNode.node_children] at hstamp ⊢
      tauto
  · rw [openStamps_adopt, openStamps_touch]
    exact ⟨.inl, mem_stamps_adopt⟩

theorem start_of_mem_stamps {inList : Bool} {node : Node} (hfresh : node.Fresh inList) {stamp : Stamp}
    (hstamp : stamp ∈ Node.stamps [node.place (lineSpan line raw)]) :
    stamp.mark.start? = some (line, (Text.indent raw : Int)) ∧ stamp.span? = some (lineSpan line raw) := by
  rw [Node.stamps_singleton] at hstamp
  obtain rfl | hbelow := List.mem_cons.mp hstamp
  · exact ⟨Node.start?_head_mark (Node.span?_place _ node), Node.span?_place _ node⟩
  · obtain ⟨inner, hinner, rfl⟩ := List.mem_map.mp hbelow
    obtain ⟨child, hchild, hinner⟩ := Node.mem_preorderForest.mp hinner
    obtain ⟨_, hnone, hspan⟩ := hfresh.builtIn _ child hchild
    rw [Node.mem_preorder_iff, hnone] at hinner
    obtain rfl | hnil := hinner
    · exact ⟨Node.start?_head_mark hspan, hspan⟩
    · cases hnil

theorem follows_attach (hnodup : (draft.stamps.map Stamp.mark).Nodup) {inList : Bool} {node : Node}
    (hfresh : node.Fresh inList) :
    ∀ stamp ∈ ((draft.attach node line raw).extendTo line raw.length).stamps,
      Follows draft.stamps line raw (fun mark => mark ∈ draft.openStamps.map Stamp.mark ∨
        (holder? draft.frames (node.place (lineSpan line raw))).map Mark.head = some mark) stamp := by
  have hnew : ∀ stamp ∈ Node.stamps [node.place (lineSpan line raw)], ∀ touched,
      Follows draft.stamps line raw touched stamp := by
    intro stamp hstamp touched
    obtain ⟨hstart, hspan⟩ := start_of_mem_stamps hfresh hstamp
    obtain ⟨mark, span?⟩ := stamp
    obtain rfl : span? = _ := hspan
    exact .new hstart
  rw [stamps, openStamps_extendTo, shutStamps_extendTo]
  refine List.forall_mem_append.mpr ⟨List.forall_mem_map.mpr fun stamp hstamp => ?_, fun stamp hstamp => ?_⟩
  · obtain hold | hadded := mem_stamps_attach.1 hstamp
    · exact .stretched (List.mem_append_left _ hold) (.inl (List.mem_map_of_mem hold))
    · -- a new node reaches to the end of the line already
      obtain ⟨hstart, hspan⟩ := start_of_mem_stamps hfresh hadded
      rw [Stamp.extendTo, hspan]
      exact .new hstart
  · obtain htouch | hadded := mem_stamps_attach.2 hstamp
    · obtain ⟨hshut, hnot⟩ | ⟨old, hshut, hheld, rfl⟩ := mem_shutStamps_touch hnodup _ htouch
      · refine .kept (List.mem_append_right _ hshut) ?_
        rintro (hopen | hheld)
        · exact not_mem_openStamps hnodup hshut hopen
        · exact hnot hheld
      · exact .stretched (List.mem_append_right _ hshut) (.inr hheld)
    · exact hnew stamp hadded _

end Touch

/-- A line of script leaves the stamp of the script as it is. -/
theorem stamps_withLine {draft : Draft} {frame : Frame OpenNode} {frames : List (Frame OpenNode)}
    {signature : Text} {body : List Text} (hframes : draft.frames = frame :: frames)
    (hcontent : frame.item.content = .script signature body) (raw : Text) :
    openStamps { draft with frames := { frame with item := frame.item.withLine signature body raw } :: frames } =
        draft.openStamps ∧
      stamps { draft with frames := { frame with item := frame.item.withLine signature body raw } :: frames } =
        draft.stamps := by
  have hopen : openStamps { draft with
      frames := { frame with item := frame.item.withLine signature body raw } :: frames } =
      draft.openStamps := by
    rw [openStamps, openStamps, hframes, List.map_cons, List.map_cons, Node.stamp,
      OpenNode.head_mark_withLine hcontent]
    rfl
  refine ⟨hopen, ?_⟩
  rw [stamps, hopen, stamps, shutStamps, shutStamps, hframes]
  rfl

end Draft

end ViewMarkup
