import ViewMarkup.Proofs.Document.Places

namespace ViewMarkup

namespace Node

mutual

/-- The node without the places of it and of the nodes below it. -/
def bare : Node → Node
  | mk content _ children => mk content none (bareForest children)

/-- The nodes without their places. -/
def bareForest : List Node → List Node
  | [] => []
  | node :: nodes => bare node :: bareForest nodes

end

theorem bareForest_eq_map (nodes : List Node) : bareForest nodes = nodes.map bare := by
  induction nodes with
  | nil => rfl
  | cons node nodes ih => rw [bareForest, ih, List.map_cons]

theorem bare_mk (content : Content) (span? : Option Span) (children : List Node) :
    (mk content span? children).bare = mk content none (children.map bare) := by
  rw [bare, bareForest_eq_map]

@[simp] theorem content_bare (node : Node) : node.bare.content = node.content := by
  cases node
  rfl

@[simp] theorem bare_extendTo (line column : Int) (node : Node) :
    (node.extendTo line column).bare = node.bare := by
  cases node
  rfl

theorem bare_append (child node : Node) : (Node.append child node).bare = Node.append child.bare node.bare := by
  obtain ⟨content, span?, children⟩ := node
  simp [append, bare_mk]

@[simp] theorem bare_withSpan (span? : Option Span) (node : Node) : (node.withSpan span?).bare = node.bare := by
  cases node
  rfl

@[simp] theorem bare_place (span : Span) (node : Node) : (node.place span).bare = node.bare := by
  obtain ⟨content, span?, children⟩ := node
  simp [place, bare_mk]

end Node

/-- A container without the places of it and of what it holds. -/
def OpenNode.bare (container : OpenNode) : Content × List Node × Option Nat :=
  (container.content, container.children.map Node.bare, container.margin?)

/-- What an open container is, apart from places. -/
def Frame.bare (frame : Frame OpenNode) : Int × Bool × Content × List Node × Option Nat :=
  (frame.indent, frame.isList, frame.item.bare)

/-- What a draft holds, apart from places and from the log. -/
def Draft.bare (draft : Draft) :
    List Node × List (Int × Bool × Content × List Node × Option Nat) × List Diagnostic × List Text :=
  (draft.roots.map Node.bare, draft.frames.map Frame.bare, draft.diagnostics, draft.imports)

theorem Frame.bare_eq_iff {frame frame' : Frame OpenNode} : frame.bare = frame'.bare ↔
    frame.indent = frame'.indent ∧ frame.isList = frame'.isList ∧ frame.item.bare = frame'.item.bare := by
  simp only [bare, Prod.mk.injEq]

theorem Frame.isClosedBy_congr {frame frame' : Frame OpenNode} (hframe : frame.bare = frame'.bare)
    (indent : Int) (isItem : Bool) : frame.isClosedBy indent isItem = frame'.isClosedBy indent isItem := by
  obtain ⟨hindent, hlist, _⟩ := bare_eq_iff.mp hframe
  rw [isClosedBy, isClosedBy, hindent, hlist]

namespace OpenNode

theorem bare_eq_iff {first second : OpenNode} : first.bare = second.bare ↔
    first.content = second.content ∧ first.children.map Node.bare = second.children.map Node.bare ∧
      first.margin? = second.margin? := by
  simp only [bare, Prod.mk.injEq]

theorem passesOn_congr {first second : OpenNode} {node other : Node} (hbare : first.bare = second.bare)
    (hnode : node.bare = other.bare) : first.passesOn node = second.passesOn other := by
  obtain ⟨hcontent, hchildren, _⟩ := bare_eq_iff.mp hbare
  have hitem : node.content = other.content := by
    rw [← Node.content_bare, hnode, Node.content_bare]
  have hempty : first.children.isEmpty = second.children.isEmpty := by
    have hlength := congrArg List.length hchildren
    simp only [List.length_map] at hlength
    cases hfirst : first.children <;> cases hsecond : second.children <;> simp_all
  rw [passesOn, passesOn, hcontent, hitem, hempty]

theorem bare_adopt_congr {first second : OpenNode} {node other : Node} (hbare : first.bare = second.bare)
    (hnode : node.bare = other.bare) : (first.adopt node).bare = (second.adopt other).bare := by
  have hpasses := passesOn_congr hbare hnode
  obtain ⟨hcontent, hchildren, hmargin⟩ := bare_eq_iff.mp hbare
  simp only [bare, adopt, hpasses, hcontent, hmargin, Prod.mk.injEq, true_and, and_true]
  split
  · rw [map_mapLast (Node.bare_append node), map_mapLast (Node.bare_append other), hnode, hchildren]
  · simp [hchildren, hnode]

theorem bare_touch (container : OpenNode) (node : Node) (line column : Int) :
    (container.touch node line column).bare = container.bare := by
  unfold touch
  split
  · rename_i hpass
    obtain ⟨items, last, hchildren⟩ := exists_last_of_passesOn hpass
    simp [bare, hchildren, mapLast_concat]
  · rfl

theorem bare_node_congr {first second : OpenNode} (hbare : first.bare = second.bare) :
    first.node.bare = second.node.bare := by
  obtain ⟨hcontent, hchildren, _⟩ := bare_eq_iff.mp hbare
  rw [node, node, Node.bare_mk, Node.bare_mk, hcontent, hchildren]

end OpenNode

namespace Draft

theorem bare_eq_iff {first second : Draft} : first.bare = second.bare ↔
    first.roots.map Node.bare = second.roots.map Node.bare ∧
      first.frames.map Frame.bare = second.frames.map Frame.bare ∧
      first.diagnostics = second.diagnostics ∧ first.imports = second.imports := by
  simp only [bare, Prod.mk.injEq]

theorem bare_extendTo (line column : Int) (draft : Draft) :
    (draft.extendTo line column).bare = draft.bare := by
  refine bare_eq_iff.mpr ⟨rfl, ?_, rfl, rfl⟩
  rw [extendTo, List.map_map]
  rfl

theorem bare_touch (draft : Draft) (node : Node) (line column : Int) :
    (draft.touch node line column).bare = draft.bare := by
  unfold touch
  split
  · rfl
  · rename_i frame frames hframes
    simp [bare, hframes, Frame.bare, OpenNode.bare_touch]

theorem bare_adopt_congr {first second : Draft} {node other : Node} (hbare : first.bare = second.bare)
    (hnode : node.bare = other.bare) : (first.adopt node).bare = (second.adopt other).bare := by
  obtain ⟨hroots, hframes, hdiagnostics, himports⟩ := bare_eq_iff.mp hbare
  unfold adopt
  cases hfirst : first.frames with
  | nil =>
    have hsecond : second.frames = [] := by simpa [hfirst] using hframes.symm
    simp [bare, hsecond, hroots, hnode, hdiagnostics, himports]
  | cons frame frames =>
    rw [hfirst, List.map_cons, eq_comm] at hframes
    obtain ⟨frame', frames', hsecond, hframe, hrest⟩ := List.map_eq_cons_iff.mp hframes
    obtain ⟨hindent, hlist, hitem⟩ := Frame.bare_eq_iff.mp hframe
    simp [bare, hsecond, Frame.bare, hroots, hrest, hindent, hlist, hdiagnostics, himports,
      OpenNode.bare_adopt_congr hitem.symm hnode]

theorem bare_push_congr {first second : Draft} {frame frame' : Frame OpenNode}
    (hbare : first.bare = second.bare) (hframe : frame.bare = frame'.bare) :
    (first.push frame).bare = (second.push frame').bare := by
  obtain ⟨hroots, hframes, hdiagnostics, himports⟩ := bare_eq_iff.mp hbare
  simp [bare, push, hroots, hframes, hdiagnostics, himports, hframe]

/-- Closing frames respects equality up to places. -/
theorem bare_settle_congr {closes : Frame OpenNode → Bool}
    (hcloses : ∀ frame frame' : Frame OpenNode, frame.bare = frame'.bare → closes frame = closes frame')
    {roots roots' : List Node} (hroots : roots.map Node.bare = roots'.map Node.bare)
    {pending? pending?' : Option Node} (hpending : pending?.map Node.bare = pending?'.map Node.bare)
    {frames frames' : List (Frame OpenNode)} (hframes : frames.map Frame.bare = frames'.map Frame.bare) :
    (settle closes roots pending? frames).1.map Node.bare =
        (settle closes roots' pending?' frames').1.map Node.bare ∧
      (settle closes roots pending? frames).2.map Frame.bare =
        (settle closes roots' pending?' frames').2.map Frame.bare := by
  induction frames generalizing pending? pending?' frames' with
  | nil =>
    obtain rfl : frames' = [] := by simpa using hframes.symm
    cases pending? <;> cases pending?' <;> simp_all [settle]
  | cons frame frames ih =>
    rw [List.map_cons, eq_comm] at hframes
    obtain ⟨frame', frames', rfl, hframe, hrest⟩ := List.map_eq_cons_iff.mp hframes
    obtain ⟨hindent, hlist, hitem⟩ := Frame.bare_eq_iff.mp hframe
    have hcontainer : (pending?.elim frame.item frame.item.adopt).bare =
        (pending?'.elim frame'.item frame'.item.adopt).bare := by
      cases pending? with
      | none =>
        obtain rfl : pending?' = none := by simpa using hpending.symm
        exact hitem.symm
      | some node =>
        obtain ⟨node', rfl, hnode⟩ := Option.map_eq_some_iff.mp hpending.symm
        exact OpenNode.bare_adopt_congr hitem.symm hnode.symm
    simp only [settle, hcloses frame frame' hframe.symm]
    split
    · exact ih (by simp [OpenNode.bare_node_congr hcontainer]) hrest.symm
    · simp [Frame.bare, hroots, hindent, hlist, hrest, hcontainer]

theorem bare_close_congr {first second : Draft} (hbare : first.bare = second.bare) (indent : Int)
    (isItem : Bool) : (first.close indent isItem).bare = (second.close indent isItem).bare := by
  obtain ⟨hroots, hframes, hdiagnostics, himports⟩ := bare_eq_iff.mp hbare
  have hpending : (none : Option Node).map Node.bare = (none : Option Node).map Node.bare := rfl
  obtain ⟨hroots', hframes'⟩ := bare_settle_congr
    (fun _ _ hframe => Frame.isClosedBy_congr hframe indent isItem) hroots hpending hframes
  exact bare_eq_iff.mpr ⟨hroots', hframes', hdiagnostics, himports⟩

theorem bare_forest_congr {first second : Draft} (hbare : first.bare = second.bare) :
    first.forest.map Node.bare = second.forest.map Node.bare := by
  obtain ⟨hroots, hframes, _⟩ := bare_eq_iff.mp hbare
  exact (bare_settle_congr (fun _ _ _ => rfl) hroots rfl hframes).1

theorem inList_congr {first second : Draft} (hbare : first.bare = second.bare) (indent : Int) :
    Frame.inList indent first.frames = Frame.inList indent second.frames := by
  have hframes := (bare_eq_iff.mp hbare).2.1
  cases hfirst : first.frames with
  | nil =>
    have hsecond : second.frames = [] := by simpa [hfirst] using hframes.symm
    rw [hsecond]
  | cons frame frames =>
    rw [hfirst, List.map_cons, eq_comm] at hframes
    obtain ⟨frame', frames', hsecond, hframe, _⟩ := List.map_eq_cons_iff.mp hframes
    obtain ⟨hindent, hlist, _⟩ := Frame.bare_eq_iff.mp hframe
    rw [hsecond, Frame.inList, Frame.inList, hindent, hlist]

theorem inScript_congr {first second : Draft} (hbare : first.bare = second.bare) :
    first.inScript = second.inScript := by
  have hview : ∀ draft : Draft, draft.inScript =
      (draft.frames.map Frame.bare).head?.any fun frame => frame.2.2.1.isScript := by
    intro draft
    rw [inScript, List.head?_map, Option.any_map]
    rfl
  rw [hview, hview, (bare_eq_iff.mp hbare).2.1]

end Draft

end ViewMarkup
