import ViewMarkup.Proofs.Document.Settle
import ViewMarkup.Proofs.Line.Outcome

namespace ViewMarkup

/-- A line of script from the left margin on. A line that starts before the margin is trimmed. -/
def scriptLine (margin : Nat) (raw : Text) : Text :=
  if margin ≤ Text.indent raw then raw.drop margin else Text.trim raw

/-- A script with one more line. The first line sets the left margin. -/
def OpenNode.withLine (container : OpenNode) (signature : Text) (body : List Text) (raw : Text) : OpenNode :=
  { container with
    content := .script signature (body ++ [scriptLine (container.margin?.getD (Text.indent raw)) raw])
    margin? := some (container.margin?.getD (Text.indent raw)) }

/-- The span of a line from its first character that is not blank. -/
def lineSpan (line : Int) (raw : Text) : Span :=
  ⟨line, Text.indent raw, line, raw.length⟩

/-- The frame of a container that a line opens. -/
def Frame.opened (node : Node) (line : Int) (raw : Text) : Frame OpenNode :=
  ⟨Text.indent raw, node.content.isList,
    ⟨node.content, lineSpan line raw, (node.place (lineSpan line raw)).children, none⟩⟩

theorem Frame.opened_node (node : Node) (line : Int) (raw : Text) :
    (Frame.opened node line raw).item.node = node.place (lineSpan line raw) := by
  cases node
  rfl

namespace Draft

/-- The draft with a finished node in the innermost open container, or as a root. -/
def adopt (draft : Draft) (node : Node) : Draft :=
  match draft.frames with
  | [] => { draft with roots := draft.roots ++ [node] }
  | frame :: frames => { draft with frames := { frame with item := frame.item.adopt node } :: frames }

/-- The draft with room for a node in the innermost open container. -/
def touch (draft : Draft) (node : Node) (line column : Int) : Draft :=
  match draft.frames with
  | [] => draft
  | frame :: frames =>
    { draft with frames := { frame with item := frame.item.touch node line column } :: frames }

/-- The draft with one more open container. -/
def push (draft : Draft) (frame : Frame OpenNode) : Draft :=
  { draft with frames := frame :: draft.frames }

/-- A node is attached by making room for it and then opening it or putting it in place. -/
theorem attach_eq (draft : Draft) (node : Node) (line : Int) (raw : Text) :
    draft.attach node line raw =
      if node.content.isContainer then
        (draft.touch (node.place (lineSpan line raw)) line raw.length).push (Frame.opened node line raw)
      else
        (draft.touch (node.place (lineSpan line raw)) line raw.length).adopt
          (node.place (lineSpan line raw)) := by
  obtain ⟨roots, frames, diagnostics, imports, log⟩ := draft
  obtain ⟨content, span?, children⟩ := node
  cases frames <;> cases hcontainer : content.isContainer <;>
    simp [attach, touch, push, adopt, Frame.opened, lineSpan, Node.content, Node.place, hcontainer,
      Node.children]

/-- Whether the innermost open container is a script. -/
def inScript (draft : Draft) : Bool :=
  draft.frames.head?.any fun frame => frame.item.content.isScript

/-- A line with its place, as it is read under the open containers. -/
def sourceLine (draft : Draft) (line : Int) (raw : Text) : SourceLine :=
  ⟨raw, line, Text.indent raw, Text.isItem raw && Frame.inList (Text.indent raw) draft.frames⟩

/-- The draft with what a line reports. -/
def reporting (draft : Draft) (faults : List Diagnostic) (log : List LogRecord) : Draft :=
  { draft with diagnostics := draft.diagnostics ++ faults, log := draft.log ++ log }

/-- The draft with an import hoisted out of a script, if it is a new one. -/
def hoist (draft : Draft) (text : Text) : Draft :=
  { draft with imports := if draft.imports.contains text then draft.imports else draft.imports ++ [text] }

/-- What a line does: nothing if it is blank; otherwise it first closes containers. Below a script it is
then hoisted or taken over; elsewhere it is dropped with one fault or attached as a node. -/
inductive Step (draft : Draft) (line : Int) (raw : Text) : Draft → Prop where
  | blank (hblank : Text.trim raw = []) : Step draft line raw draft
  | hoisted (hblank : Text.trim raw ≠ []) (hscript : (draft.closedBy raw).inScript)
      (himport : isImport (Text.trim raw)) :
      Step draft line raw (((draft.closedBy raw).hoist (Text.trim raw)).extendTo line raw.length)
  | captured (hblank : Text.trim raw ≠ []) (himport : isImport (Text.trim raw) = false)
      {frame : Frame OpenNode} {frames : List (Frame OpenNode)} {signature : Text} {body : List Text}
      (hframes : (draft.closedBy raw).frames = frame :: frames)
      (hcontent : frame.item.content = .script signature body) :
      Step draft line raw
        ({ draft.closedBy raw with
          frames := { frame with item := frame.item.withLine signature body raw } :: frames }.extendTo
          line raw.length)
  | dropped (hblank : Text.trim raw ≠ []) (hscript : (draft.closedBy raw).inScript = false)
      {fault : Diagnostic} {log : List LogRecord}
      (hread : ((draft.closedBy raw).sourceLine line raw).read? = some ⟨none, [fault], log⟩)
      (hline : fault.range.start.line = line) :
      Step draft line raw ((draft.closedBy raw).reporting [fault] log)
  | attached (hblank : Text.trim raw ≠ []) (hscript : (draft.closedBy raw).inScript = false)
      {node : Node} {faults : List Diagnostic} {log : List LogRecord}
      (hread : ((draft.closedBy raw).sourceLine line raw).read? = some ⟨some node, faults, log⟩)
      (hfresh : node.Fresh ((draft.closedBy raw).sourceLine line raw).inList)
      (hline : ∀ fault ∈ faults, fault.range.start.line = line) :
      Step draft line raw
        ((((draft.closedBy raw).reporting faults log).attach node line raw).extendTo line raw.length)

/-- A line outside scripts that is not blank is dropped or attached. None is passed over. -/
theorem readLine_step {draft : Draft} {line : Int} {raw : Text} (hblank : Text.trim raw ≠ [])
    (hscript : (draft.closedBy raw).inScript = false) :
    Step draft line raw ((draft.closedBy raw).readLine line raw (Text.isItem raw)) := by
  have hsome : ((draft.closedBy raw).sourceLine line raw).read?.isSome := SourceLine.read?_isSome hblank
  obtain ⟨reading, hread⟩ := Option.isSome_iff_exists.mp hsome
  have hsource : SourceLine.read? ⟨raw, line, Text.indent raw,
      Text.isItem raw && Frame.inList (Text.indent raw) (draft.closedBy raw).frames⟩ = some reading := hread
  cases SourceLine.read?_outcome hread with
  | dropped fault log hline =>
    simp only [readLine, hsource]
    exact .dropped hblank hscript hread hline
  | kept node faults log hfresh hline =>
    simp only [readLine, hsource]
    exact .attached hblank hscript hread hfresh hline

/-- A line below a script is hoisted or becomes a line of the script. -/
theorem capture_step {draft : Draft} {line : Int} {raw : Text} (hblank : Text.trim raw ≠ [])
    (hscript : (draft.closedBy raw).inScript) :
    Step draft line raw (((draft.closedBy raw).capture raw).extendTo line raw.length) := by
  cases himport : isImport (Text.trim raw) with
  | true =>
    rw [capture, if_pos himport]
    exact .hoisted hblank hscript himport
  | false =>
    cases hframes : (draft.closedBy raw).frames with
    | nil => simp [inScript, hframes] at hscript
    | cons frame frames =>
      cases hcontent : frame.item.content with
      | script signature body =>
        have hcapture : (draft.closedBy raw).capture raw = { draft.closedBy raw with
            frames := { frame with item := frame.item.withLine signature body raw } :: frames } := by
          simp [capture, himport, hframes, hcontent, OpenNode.withLine, scriptLine]
        rw [hcapture]
        exact .captured hblank himport hframes hcontent
      | _ => simp [inScript, hframes, hcontent, Content.isScript] at hscript

theorem step_cases (draft : Draft) (line : Int) (raw : Text) :
    Step draft line raw (draft.step line raw) := by
  unfold step
  dsimp only
  by_cases hblank : Text.trim raw = []
  · rw [if_pos hblank]
    exact .blank hblank
  · have hclosed : draft.close (Text.indent raw) (item? (Text.trim raw)).isSome = draft.closedBy raw := rfl
    rw [if_neg hblank, hclosed]
    split
    · rename_i frame frames hframes
      by_cases hscript : frame.item.content.isScript = true
      · rw [if_pos hscript]
        exact capture_step hblank (by simp [inScript, hframes, hscript])
      · rw [if_neg hscript]
        exact readLine_step hblank (by simpa [inScript, hframes] using hscript)
    · rename_i hframes
      exact readLine_step hblank (by simp [inScript, hframes])

/-- A line does one thing only, since the conditions of any two cases exclude each other. -/
theorem Step.eq {draft next : Draft} {line : Int} {raw : Text} (hstep : Step draft line raw next) :
    draft.step line raw = next := by
  have hcases := step_cases draft line raw
  generalize draft.step line raw = other at hcases
  have hscript {frame : Frame OpenNode} {frames : List (Frame OpenNode)} {signature : Text}
      {body : List Text} (hframes : (draft.closedBy raw).frames = frame :: frames)
      (hcontent : frame.item.content = .script signature body) : (draft.closedBy raw).inScript := by
    simp [inScript, hframes, hcontent, Content.isScript]
  cases hstep <;> cases hcases <;> simp_all

end Draft

namespace Document

/-- The draft after the lines below a signature line. -/
def draft (first : Text) (body : List Text) : Draft :=
  Draft.run { Draft.empty with diagnostics := (Signature.read first 0).2 } 1 body

/-- A document with a signature line is what the last draft holds. -/
theorem ofText_of_lines {t first : Text} {body : List Text} (hlines : Text.lines t = first :: body)
    (hfirst : Text.trim first ≠ []) :
    ofText t = ⟨(draft first body).forest, some (Signature.read first 0).1,
      (draft first body).diagnostics, (draft first body).imports⟩ := by
  simp [ofText, read, hlines, ofLines, hfirst, draft]

/-- A document without a signature line has no nodes. -/
theorem nodes_of_blank_signature {t first : Text} {body : List Text}
    (hlines : Text.lines t = first :: body) (hfirst : Text.trim first = []) : (ofText t).nodes = [] := by
  simp [ofText, read, hlines, ofLines, hfirst]

theorem exists_lines (t : Text) : ∃ first body, Text.lines t = first :: body := by
  unfold Text.lines
  generalize Text.foldPairs t = folded
  cases hsplit : Text.split '\n' folded with
  | nil =>
    cases folded with
    | nil => cases hsplit
    | cons c rest =>
      unfold Text.split at hsplit
      split at hsplit
      · cases hsplit
      · split at hsplit <;> cases hsplit
  | cons first body => exact ⟨_, _, rfl⟩

end Document

end ViewMarkup
