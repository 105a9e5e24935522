import ViewMarkup.Proofs.Document.Shape
import ViewMarkup.Proofs.Line.Renumber

namespace ViewMarkup

variable (ρ : Int → Int)

/-- A span on renumbered lines. -/
def Span.renumber (span : Span) : Span :=
  { span with startLine := ρ span.startLine, endLine := ρ span.endLine }

namespace Node

mutual

/-- The node and the nodes below it on renumbered lines. -/
def renumber : Node → Node
  | mk content span? children => mk content (span?.map (Span.renumber ρ)) (renumberForest children)

/-- The nodes on renumbered lines. -/
def renumberForest : List Node → List Node
  | [] => []
  | node :: nodes => renumber node :: renumberForest nodes

end

theorem renumberForest_eq_map (nodes : List Node) : renumberForest ρ nodes = nodes.map (renumber ρ) := by
  induction nodes with
  | nil => rfl
  | cons node nodes ih => rw [renumberForest, ih, List.map_cons]

@[simp] theorem renumber_mk (content : Content) (span? : Option Span) (children : List Node) :
    (mk content span? children).renumber ρ =
      mk content (span?.map (Span.renumber ρ)) (children.map (renumber ρ)) := by
  rw [renumber, renumberForest_eq_map]

@[simp] theorem content_renumber (node : Node) : (node.renumber ρ).content = node.content := by
  cases node
  rfl

theorem renumber_append (child node : Node) :
    (Node.append child node).renumber ρ = Node.append (child.renumber ρ) (node.renumber ρ) := by
  cases node
  simp [append]

theorem renumber_extendTo (line column : Int) (node : Node) :
    (node.extendTo line column).renumber ρ = (node.renumber ρ).extendTo (ρ line) column := by
  obtain ⟨content, span?, children⟩ := node
  cases span? <;> simp [extendTo, Span.extendTo, Span.renumber]

theorem renumber_place (span : Span) (node : Node) :
    (node.place span).renumber ρ = (node.renumber ρ).place (span.renumber ρ) := by
  obtain ⟨content, span?, children⟩ := node
  have hchild (child : Node) : (child.withSpan (some span)).renumber ρ =
      (child.renumber ρ).withSpan (some (span.renumber ρ)) := by
    cases child
    simp [withSpan]
  simp [place, hchild]

/-- A node that has just been read is on no line yet. -/
theorem Fresh.renumber {inList : Bool} {node : Node} (hfresh : node.Fresh inList) : node.renumber ρ = node := by
  have hleaf (content : Content) : (leaf content).renumber ρ = leaf content := by simp [leaf]
  cases hfresh with
  | plain => exact hleaf _
  | prose hprose =>
    cases hprose with
    | plain | item => exact hleaf _
    | list | emphasis => simp [emphasis, hleaf]

theorem Fresh.renumber_place {inList : Bool} {node : Node} (hfresh : node.Fresh inList) (line : Int)
    (raw : Text) : (node.place (lineSpan line raw)).renumber ρ = node.place (lineSpan (ρ line) raw) := by
  rw [Node.renumber_place, hfresh.renumber]
  rfl

end Node

namespace OpenNode

/-- The container on renumbered lines. -/
def renumber (container : OpenNode) : OpenNode :=
  { container with
    span := container.span.renumber ρ
    children := container.children.map (Node.renumber ρ) }

variable (container : OpenNode)

theorem renumber_node : (container.renumber ρ).node = container.node.renumber ρ := by
  simp [node, renumber]

theorem renumber_extendTo (line column : Int) :
    (container.extendTo line column).renumber ρ = (container.renumber ρ).extendTo (ρ line) column := rfl

theorem passesOn_renumber (node : Node) :
    (container.renumber ρ).passesOn (node.renumber ρ) = container.passesOn node := by
  simp [passesOn, renumber]

theorem renumber_adopt (node : Node) :
    (container.adopt node).renumber ρ = (container.renumber ρ).adopt (node.renumber ρ) := by
  simp only [adopt, passesOn_renumber]
  split
  · simp [renumber, map_mapLast (Node.renumber_append ρ node)]
  · simp [renumber]

theorem renumber_touch (node : Node) (line column : Int) :
    (container.touch node line column).renumber ρ =
      (container.renumber ρ).touch (node.renumber ρ) (ρ line) column := by
  simp only [touch, passesOn_renumber]
  split
  · simp [renumber, map_mapLast (Node.renumber_extendTo ρ line column)]
  · rfl

end OpenNode

namespace Frame

/-- The open container on renumbered lines. -/
def renumber (frame : Frame OpenNode) : Frame OpenNode :=
  { frame with item := frame.item.renumber ρ }

theorem opened_renumber {inList : Bool} {node : Node} (hfresh : node.Fresh inList) (line : Int) (raw : Text) :
    (opened node line raw).renumber ρ = opened node (ρ line) raw := by
  have hchildren : (node.place (lineSpan line raw)).children.map (Node.renumber ρ) =
      (node.place (lineSpan (ρ line) raw)).children := by
    rw [← hfresh.renumber_place ρ]
    cases node.place (lineSpan line raw)
    simp [Node.children]
  simp only [renumber, opened, OpenNode.renumber, hchildren]
  rfl

end Frame

namespace Draft

/-- The draft on renumbered lines. -/
def renumber (draft : Draft) : Draft :=
  { draft with
    roots := draft.roots.map (Node.renumber ρ)
    frames := draft.frames.map (Frame.renumber ρ)
    diagnostics := draft.diagnostics.map (Diagnostic.renumber ρ) }

/-- A test that does not look at what a frame holds closes the same frames. -/
theorem settle_renumber (closes : Frame OpenNode → Bool)
    (hitem : ∀ (frame : Frame OpenNode) (item : OpenNode), closes { frame with item } = closes frame)
    (roots : List Node) (pending? : Option Node) (frames : List (Frame OpenNode)) :
    settle closes (roots.map (Node.renumber ρ)) (pending?.map (Node.renumber ρ))
        (frames.map (Frame.renumber ρ)) =
      ((settle closes roots pending? frames).1.map (Node.renumber ρ),
        (settle closes roots pending? frames).2.map (Frame.renumber ρ)) := by
  rw [show Frame.renumber ρ = Frame.recast id (OpenNode.renumber ρ) from rfl]
  exact settle_recast (fun container node => container.renumber_adopt ρ node)
    (fun container => container.renumber_node ρ) (fun frame _ => hitem frame _) roots pending?

variable (draft : Draft)

theorem renumber_closedBy (raw : Text) :
    (draft.closedBy raw).renumber ρ = (draft.renumber ρ).closedBy raw := by
  have hsettle := settle_renumber ρ (Frame.isClosedBy (Text.indent raw) (Text.isItem raw))
    (fun _ _ => rfl) draft.roots none draft.frames
  rw [Option.map_none] at hsettle
  simp only [closedBy, close, renumber, hsettle]

theorem forest_renumber : (draft.renumber ρ).forest = draft.forest.map (Node.renumber ρ) := by
  have hsettle := settle_renumber ρ (fun _ => true) (fun _ _ => rfl) draft.roots none draft.frames
  rw [Option.map_none] at hsettle
  simp only [forest, renumber, hsettle]

theorem inScript_renumber : (draft.renumber ρ).inScript = draft.inScript := by
  rw [inScript, inScript, renumber, List.head?_map, Option.any_map]
  rfl

theorem sourceLine_renumber (line : Int) (raw : Text) :
    (draft.renumber ρ).sourceLine (ρ line) raw = (draft.sourceLine line raw).renumber ρ := by
  obtain ⟨roots, frames, diagnostics, imports, log⟩ := draft
  cases frames <;> rfl

theorem renumber_extendTo (line column : Int) :
    (draft.extendTo line column).renumber ρ = (draft.renumber ρ).extendTo (ρ line) column := by
  simp [extendTo, renumber, Frame.renumber, OpenNode.renumber_extendTo]

theorem renumber_reporting (faults : List Diagnostic) (log : List LogRecord) :
    (draft.reporting faults log).renumber ρ =
      (draft.renumber ρ).reporting (faults.map (Diagnostic.renumber ρ)) log := by
  simp [reporting, renumber]

theorem renumber_touch (node : Node) (line column : Int) :
    (draft.touch node line column).renumber ρ =
      (draft.renumber ρ).touch (node.renumber ρ) (ρ line) column := by
  obtain ⟨roots, frames, diagnostics, imports, log⟩ := draft
  cases frames with
  | nil => rfl
  | cons frame frames => simp [touch, renumber, Frame.renumber, OpenNode.renumber_touch]

theorem renumber_adopt (node : Node) :
    (draft.adopt node).renumber ρ = (draft.renumber ρ).adopt (node.renumber ρ) := by
  obtain ⟨roots, frames, diagnostics, imports, log⟩ := draft
  cases frames with
  | nil => simp [adopt, renumber]
  | cons frame frames => simp [adopt, renumber, Frame.renumber, OpenNode.renumber_adopt]

theorem renumber_attach {inList : Bool} {node : Node} (hfresh : node.Fresh inList) (line : Int)
    (raw : Text) : (draft.attach node line raw).renumber ρ = (draft.renumber ρ).attach node (ρ line) raw := by
  rw [attach_eq, attach_eq, ← hfresh.renumber_place ρ, ← renumber_touch]
  split
  · rw [← Frame.opened_renumber ρ hfresh]
    rfl
  · rw [renumber_adopt]

theorem read?_renumber {draft : Draft} {line : Int} {raw : Text} {reading : Reading}
    (hread : ((draft.closedBy raw).sourceLine line raw).read? = some reading) :
    (((draft.renumber ρ).closedBy raw).sourceLine (ρ line) raw).read? = some (reading.renumber ρ) := by
  rw [← renumber_closedBy, sourceLine_renumber, SourceLine.read?_renumber, hread, Option.map_some]

/-- What a line does, it does under any number. -/
theorem Step.renumber {draft next : Draft} {line : Int} {raw : Text} (hstep : Step draft line raw next) :
    Step (draft.renumber ρ) (ρ line) raw (next.renumber ρ) := by
  have hclosed := renumber_closedBy ρ draft raw
  have hinScript : ((draft.renumber ρ).closedBy raw).inScript = (draft.closedBy raw).inScript := by
    rw [← hclosed, inScript_renumber]
  cases hstep with
  | blank hblank => exact .blank hblank
  | hoisted hblank hscript himport =>
    have hstep' : Step (draft.renumber ρ) (ρ line) raw _ := .hoisted hblank (hinScript.trans hscript) himport
    rw [← hclosed] at hstep'
    rw [renumber_extendTo]
    exact hstep'
  | captured hblank himport hframes hcontent =>
    have hframes' := congrArg Draft.frames hclosed
    rw [Draft.renumber, hframes, List.map_cons] at hframes'
    have hstep' : Step (draft.renumber ρ) (ρ line) raw _ := .captured hblank himport hframes'.symm hcontent
    rw [← hclosed] at hstep'
    rw [renumber_extendTo]
    exact hstep'
  | dropped hblank hscript hread hline =>
    rw [renumber_reporting, hclosed]
    exact .dropped hblank (hinScript.trans hscript) (read?_renumber ρ hread) (congrArg ρ hline)
  | attached hblank hscript hread hfresh hline =>
    rw [renumber_extendTo, renumber_attach ρ _ hfresh, renumber_reporting, hclosed]
    refine .attached hblank (hinScript.trans hscript) (read?_renumber ρ hread) ?_ ?_
    · rw [← hclosed, sourceLine_renumber]
      exact hfresh
    · rw [List.forall_mem_map]
      exact fun fault hfault => congrArg ρ (hline fault hfault)

/-- Lines that still count up by one under their other numbers may be renumbered before or after they are
read. The number behind the last line does not matter. -/
theorem run_renumber (draft : Draft) (line : Int) (lines : List Text)
    (hnext : ∀ l, line ≤ l → l + 1 < line + lines.length → ρ (l + 1) = ρ l + 1) :
    (draft.run line lines).renumber ρ = (draft.renumber ρ).run (ρ line) lines := by
  induction lines generalizing draft line with
  | nil => rfl
  | cons raw lines ih =>
    rw [run, run, ((step_cases draft line raw).renumber ρ).eq]
    cases lines with
    | nil => rfl
    | cons next lines =>
      simp only [List.length_cons, Int.natCast_add, Int.natCast_one] at hnext ih
      rw [← hnext line (Int.le_refl line) (by omega)]
      exact ih _ _ fun l hl hlt => hnext l (by omega) (by omega)

end Draft

end ViewMarkup
