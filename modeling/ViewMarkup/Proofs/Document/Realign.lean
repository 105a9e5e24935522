import ViewMarkup.Proofs.Document.Shape
import ViewMarkup.Proofs.Line.Moved

namespace ViewMarkup

/-- The content without the margins of script lines. -/
def Content.flush : Content → Content
  | script signature body => script signature (body.map Text.trimStart)
  | content => content

/-- The lines of a span without its columns. -/
def Span.flush (span : Span) : Span :=
  { span with startColumn := 0, endColumn := 0 }

namespace Content

variable (content : Content)

@[simp] theorem isList_flush : content.flush.isList = content.isList := by
  cases content <;> rfl

@[simp] theorem isItem_flush : content.flush.isItem = content.isItem := by
  cases content <;> rfl

@[simp] theorem isScript_flush : content.flush.isScript = content.isScript := by
  cases content <;> rfl

theorem flush_flush : content.flush.flush = content.flush := by
  cases content with
  | script signature body => simp [flush, Function.comp_def, Text.trimStart, List.dropWhile_idempotent]
  | _ => rfl

end Content

namespace Node

mutual

/-- The node and the nodes below it without columns and margins. -/
def flush : Node → Node
  | mk content span? children => mk content.flush (span?.map Span.flush) (flushForest children)

/-- The nodes without columns and margins. -/
def flushForest : List Node → List Node
  | [] => []
  | node :: nodes => flush node :: flushForest nodes

end

theorem flushForest_eq_map (nodes : List Node) : flushForest nodes = nodes.map flush := by
  induction nodes with
  | nil => rfl
  | cons node nodes ih => rw [flushForest, ih, List.map_cons]

@[simp] theorem flush_mk (content : Content) (span? : Option Span) (children : List Node) :
    (mk content span? children).flush =
      mk content.flush (span?.map Span.flush) (children.map flush) := by
  rw [flush, flushForest_eq_map]

@[simp] theorem content_flush (node : Node) : node.flush.content = node.content.flush := by
  cases node
  rfl

theorem flush_flush (node : Node) : node.flush.flush = node.flush := by
  induction node using induction with
  | mk content span? children ih =>
    have hspan : (span?.map Span.flush).map Span.flush = span?.map Span.flush := by
      cases span? <;> rfl
    rw [flush_mk, flush_mk, hspan, content.flush_flush, List.map_map]
    congr 1
    exact List.map_congr_left ih

theorem map_flush_flush (nodes : List Node) : (nodes.map flush).map flush = nodes.map flush := by
  rw [List.map_map]
  exact List.map_congr_left fun node _ => node.flush_flush

theorem flush_append (child node : Node) :
    (Node.append child node).flush = Node.append child.flush node.flush := by
  cases node
  simp [append]

theorem flush_extendTo (line column : Int) (node : Node) :
    (node.extendTo line column).flush = node.flush.extendTo line 0 := by
  obtain ⟨content, span?, children⟩ := node
  cases span? <;> simp [extendTo, Span.extendTo, Span.flush]

theorem flush_place (span : Span) (node : Node) :
    (node.place span).flush = node.flush.place span.flush := by
  obtain ⟨content, span?, children⟩ := node
  have hchild (child : Node) : (child.withSpan (some span)).flush =
      child.flush.withSpan (some span.flush) := by
    cases child
    simp [withSpan]
  simp [place, hchild]

/-- A line under another indent gives a node on the same line. -/
theorem flush_place_lineSpan (node : Node) (line : Int) (raw raw' : Text) :
    (node.place (lineSpan line raw')).flush = (node.place (lineSpan line raw)).flush := by
  rw [flush_place, flush_place]
  rfl

end Node

namespace OpenNode

/-- The container without columns and margins. The margin of an open script is an indent. -/
def realign (f : Int → Int) (container : OpenNode) : OpenNode :=
  ⟨container.content.flush, container.span.flush, container.children.map Node.flush,
    container.margin?.map fun margin : Nat => (f margin).toNat⟩

variable (f : Int → Int) (container : OpenNode)

theorem realign_node : (container.realign f).node = container.node.flush := by
  simp [node, realign]

theorem realign_extendTo (line column : Int) :
    (container.extendTo line column).realign f = (container.realign f).extendTo line 0 := rfl

theorem passesOn_realign (node : Node) :
    (container.realign f).passesOn node.flush = container.passesOn node := by
  simp [passesOn, realign]

theorem realign_adopt (node : Node) :
    (container.adopt node).realign f = (container.realign f).adopt node.flush := by
  simp only [adopt, passesOn_realign]
  split
  · simp [realign, map_mapLast (Node.flush_append node)]
  · simp [realign]

theorem realign_touch (node : Node) (line column : Int) :
    (container.touch node line column).realign f = (container.realign f).touch node.flush line 0 := by
  simp only [touch, passesOn_realign]
  split
  · simp [realign, map_mapLast (Node.flush_extendTo line column)]
  · rfl

theorem realign_realign : (container.realign f).realign id = container.realign f := by
  have hmargin : (container.margin?.map fun margin : Nat => (f margin).toNat).map
      (fun margin : Nat => (id (margin : Int)).toNat) =
        container.margin?.map fun margin : Nat => (f margin).toNat := by
    rw [Option.map_map]
    rfl
  simp only [realign, Content.flush_flush, Node.map_flush_flush, hmargin]
  rfl

end OpenNode

/-- The fault further to the right by the offset of its line. -/
def Diagnostic.shift (offset : Int → Int) (fault : Diagnostic) : Diagnostic :=
  { fault with
    range := ⟨⟨fault.range.start.line, fault.range.start.character + offset fault.range.start.line⟩,
      ⟨fault.range.stop.line, fault.range.stop.character + offset fault.range.stop.line⟩⟩ }

theorem Diagnostic.map_shift_zero (faults : List Diagnostic) :
    faults.map (shift fun _ => 0) = faults := by
  have hshift : shift (fun _ => 0) = id := by
    funext fault
    simp [shift]
  rw [hshift, List.map_id]

namespace Frame

/-- The open container under another indent. -/
abbrev realign (f : Int → Int) : Frame OpenNode → Frame OpenNode :=
  recast f (OpenNode.realign f)

theorem opened_realign {f : Int → Int} {raw raw' : Text} (hindent : (Text.indent raw' : Int) = f (Text.indent raw))
    (node : Node) (line : Int) : (opened node line raw').realign id = (opened node line raw).realign f := by
  have hchildren : (node.place (lineSpan line raw')).children.map Node.flush =
      (node.place (lineSpan line raw)).children.map Node.flush := by
    have hplace := congrArg Node.children (node.flush_place_lineSpan line raw raw')
    cases node
    simpa [Node.place, Node.children] using hplace
  simp only [realign, recast, opened, OpenNode.realign, hchildren, hindent]
  rfl

end Frame

namespace Draft

/-- The draft under other indents. -/
def realign (f offset : Int → Int) (draft : Draft) : Draft :=
  { draft with
    roots := draft.roots.map Node.flush
    frames := draft.frames.map (Frame.realign f)
    diagnostics := draft.diagnostics.map (Diagnostic.shift offset) }

variable (f offset : Int → Int) (draft : Draft)

theorem realign_realign : (draft.realign f offset).realign id (fun _ => 0) = draft.realign f offset := by
  have hframes : (draft.frames.map (Frame.realign f)).map (Frame.realign id) =
      draft.frames.map (Frame.realign f) := by
    rw [List.map_map]
    apply List.map_congr_left
    intro frame _
    simp only [Function.comp_apply, Frame.realign, Frame.recast, OpenNode.realign_realign, id]
  simp only [realign, Node.map_flush_flush, hframes, Diagnostic.map_shift_zero]

theorem inScript_realign : (draft.realign f offset).inScript = draft.inScript := by
  rw [inScript, inScript, realign, List.head?_map, Option.any_map]
  congr 1
  funext frame
  exact frame.item.content.isScript_flush

theorem realign_extendTo (line column : Int) :
    (draft.extendTo line column).realign f offset = (draft.realign f offset).extendTo line 0 := by
  simp [extendTo, realign, Frame.recast, OpenNode.realign_extendTo]

theorem realign_reporting (faults : List Diagnostic) (log : List LogRecord) :
    (draft.reporting faults log).realign f offset =
      (draft.realign f offset).reporting (faults.map (Diagnostic.shift offset)) log := by
  simp [reporting, realign]

theorem realign_touch (node : Node) (line column : Int) :
    (draft.touch node line column).realign f offset =
      (draft.realign f offset).touch node.flush line 0 := by
  obtain ⟨roots, frames, diagnostics, imports, log⟩ := draft
  cases frames with
  | nil => rfl
  | cons frame frames => simp [touch, realign, Frame.recast, OpenNode.realign_touch]

theorem realign_adopt (node : Node) :
    (draft.adopt node).realign f offset = (draft.realign f offset).adopt node.flush := by
  obtain ⟨roots, frames, diagnostics, imports, log⟩ := draft
  cases frames with
  | nil => simp [adopt, realign]
  | cons frame frames => simp [adopt, realign, Frame.recast, OpenNode.realign_adopt]

theorem settle_realign {closes closes' : Frame OpenNode → Bool} {frames : List (Frame OpenNode)}
    (hcloses : ∀ frame ∈ frames, closes' (frame.realign f) = closes frame) (roots : List Node) :
    settle closes' (roots.map Node.flush) none (frames.map (Frame.realign f)) =
      ((settle closes roots none frames).1.map Node.flush,
        (settle closes roots none frames).2.map (Frame.realign f)) :=
  settle_recast (fun container node => container.realign_adopt f node)
    (fun container => container.realign_node f) hcloses roots none

theorem forest_realign : (draft.realign f offset).forest = draft.forest.map Node.flush :=
  congrArg Prod.fst (settle_realign f (fun _ _ => rfl) draft.roots)

end Draft

end ViewMarkup
