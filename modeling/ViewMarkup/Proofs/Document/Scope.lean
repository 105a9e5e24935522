import ViewMarkup.Proofs.Document.Growth

namespace ViewMarkup

/-- Whether a container takes a line: the line is deeper, or it is an item at the indent of a list. -/
def Content.admits (content : Content) (indent : Int) (raw : Text) : Bool :=
  decide (indent < Text.indent raw) || (content.isList && Text.isItem raw && Text.indent raw == indent)

@[simp] theorem Content.admits_head (content : Content) : content.head.admits = content.admits := by
  funext indent raw
  simp [admits]

/-- Whether a container stays open over a line. A blank line closes nothing. -/
def Content.outlasts (content : Content) (indent : Int) (raw : Text) : Bool :=
  decide (Text.trim raw = []) || content.admits indent raw

@[simp] theorem Content.outlasts_head (content : Content) : content.head.outlasts = content.outlasts := by
  funext indent raw
  simp [outlasts]

namespace Mark

/-- The column at which the node starts. -/
def column (mark : Mark) : Int :=
  (mark.start?.map Prod.snd).getD 0

/-- The lines below the first line of a node. -/
def below (lines : List Text) (mark : Mark) : List Text :=
  mark.start?.elim [] fun start => lines.drop (start.1.toNat + 1)

/-- Whether the node is a container that no line after its own has closed. -/
def isOpen (lines : List Text) (mark : Mark) : Bool :=
  mark.content.isContainer && (mark.below lines).all (mark.content.outlasts mark.column)

@[simp] theorem isOpen_head (lines : List Text) (mark : Mark) :
    mark.head.isOpen lines = mark.isOpen lines := by
  simp [isOpen, head, below, column]

/-- The frame of a container. -/
def frame (mark : Mark) : Frame Mark :=
  ⟨mark.column, mark.content.isList, mark⟩

theorem isOpen_concat {lines : List Text} {mark : Mark} {k : Nat} {column : Int} (raw : Text)
    (hstart : mark.start? = some ((k : Int), column)) (hk : k < lines.length) :
    mark.isOpen (lines ++ [raw]) = (mark.isOpen lines && mark.content.outlasts mark.column raw) := by
  have hdrop : (lines ++ [raw]).drop (k + 1) = lines.drop (k + 1) ++ [raw] := by
    rw [List.drop_append_of_le_length hk]
  simp only [isOpen, below, hstart, Option.elim_some, Int.toNat_natCast, hdrop, List.all_append,
    List.all_cons, List.all_nil, Bool.and_true, Bool.and_assoc]

/-- Nothing follows the last line. -/
theorem isOpen_of_last {lines : List Text} {mark : Mark} {column : Int} (raw : Text)
    (hstart : mark.start? = some ((lines.length : Int), column)) :
    mark.isOpen (lines ++ [raw]) = mark.content.isContainer := by
  simp [isOpen, below, hstart]

end Mark

namespace Frame

variable {α : Type}

/-- The frame without what is inside the container. -/
def head (frame : Frame OpenNode) : Frame Mark :=
  ⟨frame.indent, frame.isList, frame.item.node.mark.head⟩

theorem isClosedBy_eq_false_iff {frame : Frame α} {indent : Int} {isItem : Bool} :
    frame.isClosedBy indent isItem = false ↔
      frame.indent < indent ∨ isItem ∧ frame.indent = indent ∧ frame.isList := by
  simp only [isClosedBy, Bool.and_eq_false_iff, decide_eq_false_iff_not, Bool.not_eq_false',
    Bool.and_eq_true, beq_iff_eq, and_assoc, Int.not_le]

/-- A mark stays open over a line that is not blank iff the line does not close its frame. -/
theorem isClosedBy_mark_frame (mark : Mark) (raw : Text) :
    (!mark.frame.isClosedBy (Text.indent raw) (Text.isItem raw)) = mark.content.admits mark.column raw := by
  rw [Bool.eq_iff_iff, Bool.not_eq_true', isClosedBy_eq_false_iff]
  simp only [Mark.frame, Content.admits, Bool.or_eq_true, decide_eq_true_eq, Bool.and_eq_true, beq_iff_eq]
  constructor
  · rintro (hlt | ⟨hitem, heq, hlist⟩)
    · exact .inl hlt
    · exact .inr ⟨⟨hlist, hitem⟩, heq.symm⟩
  · rintro (hlt | ⟨⟨hlist, hitem⟩, heq⟩)
    · exact .inl hlt
    · exact .inr ⟨hitem, heq.symm, hlist⟩

/-- If the indents decrease from the inside out, a line that leaves a container open leaves open
everything around it. So what stays open does not depend on the order of closing. -/
theorem resolve_eq_filter {frames : List (Frame α)} (indent : Int) (isItem : Bool)
    (hdecreasing : frames.Pairwise fun inner outer => outer.indent < inner.indent) :
    resolve indent isItem frames = frames.filter fun frame => !frame.isClosedBy indent isItem := by
  unfold resolve
  induction hdecreasing with
  | nil => rfl
  | @cons frame frames houter _ ih =>
    cases hclosed : frame.isClosedBy indent isItem with
    | true => rw [List.dropWhile_cons_of_pos hclosed, ih, List.filter_cons_of_neg (by simp [hclosed])]
    | false =>
      have hle : frame.indent ≤ indent := by
        obtain hlt | ⟨_, heq, _⟩ := isClosedBy_eq_false_iff.mp hclosed
        · omega
        · omega
      rw [List.dropWhile_cons_of_neg (by simp [hclosed]), List.filter_eq_self.mpr]
      refine List.forall_mem_cons.mpr ⟨by simp [hclosed], fun outer hmem => ?_⟩
      have hlt := houter outer hmem
      rw [isClosedBy_eq_false_iff.mpr (.inl (by omega))]
      rfl

/-- The innermost container that stays open is at most as deep as the line, and as deep only if it is
a list and the line is an item. -/
theorem resolve_head {frames rest : List (Frame α)} {frame : Frame α} {indent : Int} {isItem : Bool}
    (hresolve : resolve indent isItem frames = frame :: rest) :
    frame.indent < indent ∨ isItem ∧ frame.indent = indent ∧ frame.isList := by
  have hnot := List.head?_dropWhile_not (isClosedBy indent isItem) frames
  rw [show frames.dropWhile (isClosedBy indent isItem) = frame :: rest from hresolve] at hnot
  exact isClosedBy_eq_false_iff.mp (by simpa using hnot)

theorem head_opened (node : Node) (line : Int) (raw : Text) :
    (opened node line raw).head = (node.place (lineSpan line raw)).mark.head.frame := by
  cases node
  simp [head, opened, Mark.frame, Mark.head, Mark.column, Node.mark, OpenNode.node,
    Node.content, Node.place, Node.span?, lineSpan]

end Frame

/-- A view of a container that does not change while the container grows. -/
structure Frame.Stable {α : Type} (view : Frame OpenNode → α) : Prop where
  adopt : ∀ (frame : Frame OpenNode) (node : Node),
    view { frame with item := frame.item.adopt node } = view frame
  touch : ∀ (frame : Frame OpenNode) (node : Node) (line column : Int),
    view { frame with item := frame.item.touch node line column } = view frame
  extendTo : ∀ (frame : Frame OpenNode) (line column : Int),
    view { frame with item := frame.item.extendTo line column } = view frame

theorem Frame.head_stable : Frame.Stable Frame.head :=
  ⟨fun _ _ => rfl, fun _ _ _ _ => by simp only [Frame.head, OpenNode.touch_mark], fun _ _ _ => rfl⟩

namespace Draft

section Stable

variable {α : Type} {view : Frame OpenNode → α}

theorem map_frames_closedBy (hview : Frame.Stable view) (draft : Draft) (raw : Text) :
    (draft.closedBy raw).frames.map view =
      (Frame.resolve (Text.indent raw) (Text.isItem raw) draft.frames).map view :=
  map_close_frames view hview.adopt draft (Text.indent raw) (Text.isItem raw)

theorem map_frames_extendTo (hview : Frame.Stable view) (line column : Int) (draft : Draft) :
    (draft.extendTo line column).frames.map view = draft.frames.map view := by
  rw [extendTo, List.map_map]
  exact List.map_congr_left fun frame _ => hview.extendTo frame line column

theorem map_frames_touch (hview : Frame.Stable view) (draft : Draft) (node : Node) (line column : Int) :
    (draft.touch node line column).frames.map view = draft.frames.map view := by
  unfold touch
  split
  · rfl
  · rename_i frame frames hframes
    rw [hframes, List.map_cons, List.map_cons, hview.touch]

/-- A node that is attached is opened, or it leaves the open containers as they are. -/
theorem map_frames_attach (hview : Frame.Stable view) (draft : Draft) (node : Node) (line : Int)
    (raw : Text) :
    (draft.attach node line raw).frames.map view =
      if node.content.isContainer then view (Frame.opened node line raw) :: draft.frames.map view
      else draft.frames.map view := by
  rw [attach_eq]
  split
  · rw [push, List.map_cons, map_frames_touch hview]
  · rw [← map_frames_touch hview draft (node.place (lineSpan line raw)) line raw.length]
    unfold adopt
    split
    · rfl
    · rename_i frame frames hframes
      rw [hframes, List.map_cons, List.map_cons, hview.adopt]

end Stable

/-- The open containers, innermost first, without what is inside them. -/
def scopes (draft : Draft) : List (Frame Mark) :=
  draft.frames.map Frame.head

/-- The marks of a draft, in the order of lines. -/
def marks (draft : Draft) : List Mark :=
  draft.places.map fun place => place.mark.head

theorem scopes_closedBy (draft : Draft) (raw : Text) :
    (draft.closedBy raw).scopes = Frame.resolve (Text.indent raw) (Text.isItem raw) draft.scopes := by
  rw [scopes, map_frames_closedBy Frame.head_stable, Frame.resolve, Frame.resolve, scopes, List.dropWhile_map]
  rfl

theorem scopes_extendTo (line column : Int) (draft : Draft) :
    (draft.extendTo line column).scopes = draft.scopes :=
  map_frames_extendTo Frame.head_stable line column draft

theorem scopes_attach (draft : Draft) (node : Node) (line : Int) (raw : Text) :
    (draft.attach node line raw).scopes =
      if node.content.isContainer then (Frame.opened node line raw).head :: draft.scopes
      else draft.scopes :=
  map_frames_attach Frame.head_stable draft node line raw

/-- What a line does to the open containers: it closes what it closes and opens at most one, which is
among the marks it adds. The new container is deeper than the one around it. -/
structure Opens (draft : Draft) (line : Int) (raw : Text) (next : Draft) (added : List Mark)
    (opened? : Option Mark) : Prop where
  marks : next.marks = draft.marks ++ added
  start : ∀ mark ∈ added, mark.start? = some (line, (Text.indent raw : Int))
  containers : (added.filter fun mark => mark.content.isContainer) = opened?.toList
  scopes : next.scopes = opened?.toList.map Mark.frame ++
    Frame.resolve (Text.indent raw) (Text.isItem raw) draft.scopes
  deeper : ∀ mark ∈ opened?,
    ∀ frame ∈ (Frame.resolve (Text.indent raw) (Text.isItem raw) draft.scopes).head?,
      frame.indent < Text.indent raw

theorem opens_nothing {draft next : Draft} {line : Int} {raw : Text} (hmarks : next.marks = draft.marks)
    (hscopes : next.scopes = (draft.closedBy raw).scopes) : Opens draft line raw next [] none := by
  refine ⟨by rw [hmarks, List.append_nil], by simp, rfl, ?_, by simp⟩
  rw [hscopes, scopes_closedBy]
  rfl

theorem marks_eq_of_places {first second : Draft} (hplaces : first.places = second.places) :
    first.marks = second.marks := by
  rw [marks, hplaces, marks]

theorem marks_eq_map_head (draft : Draft) : draft.marks = (draft.places.map Place.head).map Place.mark := by
  rw [marks, List.map_map]
  rfl

theorem marks_hoisted (draft : Draft) (text : Text) (line column : Int) (raw : Text) :
    (((draft.closedBy raw).hoist text).extendTo line column).marks = draft.marks := by
  apply marks_eq_of_places
  rw [places_extendTo, ← places_closedBy draft raw]
  rfl

theorem marks_reporting (draft : Draft) (faults : List Diagnostic) (log : List LogRecord) (raw : Text) :
    ((draft.closedBy raw).reporting faults log).marks = draft.marks := by
  apply marks_eq_of_places
  rw [← places_closedBy draft raw]
  rfl

theorem Shaped.marks_withLine {draft : Draft} (hshaped : draft.Shaped) {raw : Text}
    {frame : Frame OpenNode} {frames : List (Frame OpenNode)} {signature : Text} {body : List Text}
    (hframes : (draft.closedBy raw).frames = frame :: frames)
    (hcontent : frame.item.content = .script signature body) (line column : Int) :
    ({ draft.closedBy raw with
      frames := { frame with item := frame.item.withLine signature body raw } :: frames }.extendTo
      line column).marks = draft.marks := by
  have hclosed : (draft.closedBy raw).Shaped := hshaped.close _ _
  rw [marks_eq_map_head, places_extendTo, hclosed.map_head_withLine hframes hcontent, ← marks_eq_map_head]
  exact marks_eq_of_places (places_closedBy draft raw)

theorem marks_attached {inList : Bool} {node : Node} (hfresh : node.Fresh inList) (draft : Draft)
    (faults : List Diagnostic) (log : List LogRecord) (line : Int) (raw : Text) :
    ((((draft.closedBy raw).reporting faults log).attach node line raw).extendTo line raw.length).marks =
      draft.marks ++ (node.place (lineSpan line raw)).mark.head ::
        (node.place (lineSpan line raw)).children.map fun child => child.mark.head := by
  obtain ⟨_, hplaces⟩ := hfresh.places_place
    (holder? (draft.closedBy raw).frames (node.place (lineSpan line raw))) (lineSpan line raw)
  rw [marks, places_attached, hplaces, List.map_append, marks]
  simp

/-- A container that is opened is deeper than the one around it: one of the same indent would be a list
that goes on, and an item that goes on with a list opens nothing. -/
theorem indent_lt_of_opened {draft : Draft} {line : Int} {raw : Text} {node : Node}
    {faults : List Diagnostic} {log : List LogRecord}
    (hread : ((draft.closedBy raw).sourceLine line raw).read? = some ⟨some node, faults, log⟩)
    (hcontainer : node.content.isContainer) {frame : Frame Mark}
    (hframe : frame ∈ (Frame.resolve (Text.indent raw) (Text.isItem raw) draft.scopes).head?) :
    frame.indent < Text.indent raw := by
  obtain ⟨rest, hresolve⟩ := List.head?_eq_some_iff.mp hframe
  obtain hlt | ⟨hitem, heq, hlist⟩ := Frame.resolve_head hresolve
  · exact hlt
  · -- a line of the same indent that goes on with the list is an item, and items open nothing
    exfalso
    have htrimmed : (item? ((draft.closedBy raw).sourceLine line raw).trimmed).isSome := hitem
    have hnotIn := (SourceLine.isList_of_item htrimmed hread rfl hcontainer).2
    have hin : Frame.inList (Text.indent raw) (draft.closedBy raw).frames = true := by
      have hscopes := (scopes_closedBy draft raw).trans hresolve
      obtain ⟨top, frames, hframes, rfl, -⟩ := List.map_eq_cons_iff.mp hscopes
      rw [hframes, Frame.inList]
      simpa [Frame.head] using ⟨heq, hlist⟩
    simp [sourceLine, hitem, hin] at hnotIn

/-- A line that is not blank closes what it closes, whatever else it does. -/
theorem Shaped.opens_step {draft : Draft} (hshaped : draft.Shaped) (line : Int) {raw : Text}
    (hblank : Text.trim raw ≠ []) :
    ∃ added opened?, Opens draft line raw (draft.step line raw) added opened? := by
  have hstep := step_cases draft line raw
  generalize draft.step line raw = next at hstep ⊢
  cases hstep with
  | blank hnil => exact absurd hnil hblank
  | hoisted =>
    refine ⟨[], none, opens_nothing (marks_hoisted draft _ _ _ raw) ?_⟩
    rw [scopes_extendTo]
    rfl
  | captured _ _ hframes hcontent =>
    refine ⟨[], none, opens_nothing (hshaped.marks_withLine hframes hcontent _ _) ?_⟩
    rw [scopes_extendTo, scopes, scopes, hframes, List.map_cons, List.map_cons, Frame.head,
      OpenNode.head_mark_withLine hcontent]
    rfl
  | dropped => exact ⟨[], none, opens_nothing (marks_reporting draft _ _ raw) rfl⟩
  | @attached _ _ node faults log hread hfresh _ =>
    refine ⟨_, if node.content.isContainer then some (node.place (lineSpan line raw)).mark.head else none,
      marks_attached hfresh draft faults log line raw, ?_, ?_, ?_, ?_⟩
    · refine List.forall_mem_cons.mpr ⟨Node.start?_head_mark (Node.span?_place _ node), ?_⟩
      intro mark hmark
      obtain ⟨child, hchild, rfl⟩ := List.mem_map.mp hmark
      exact Node.start?_head_mark (hfresh.builtIn _ child hchild).2.2
    · have hbelow : ((node.place (lineSpan line raw)).children.map fun child => child.mark.head).filter
          (fun mark => mark.content.isContainer) = [] := by
        refine List.filter_eq_nil_iff.mpr fun mark hmark => ?_
        obtain ⟨child, hchild, rfl⟩ := List.mem_map.mp hmark
        simpa [Mark.head, Node.mark] using (hfresh.builtIn _ child hchild).1.not_isContainer
      have hcontent : (node.place (lineSpan line raw)).mark.head.content.isContainer =
          node.content.isContainer := by
        simp [Mark.head, Node.mark]
      rw [List.filter_cons, hbelow, hcontent]
      split <;> rfl
    · rw [scopes_extendTo, scopes_attach, Frame.head_opened, ← scopes_closedBy]
      split <;> rfl
    · intro mark hmark frame hframe
      split at hmark
      · rename_i hcontainer
        exact indent_lt_of_opened hread hcontainer hframe
      · cases hmark

theorem Opens.mem_added {draft next : Draft} {line : Int} {raw : Text} {added : List Mark} {mark : Mark}
    (hopens : Opens draft line raw next added (some mark)) : mark ∈ added := by
  have hmem : mark ∈ added.filter fun mark => mark.content.isContainer := by
    simp [hopens.containers]
  exact List.mem_of_mem_filter hmem

theorem Opens.decreasing {draft next : Draft} {line : Int} {raw : Text} {added : List Mark}
    {opened? : Option Mark} (hopens : Opens draft line raw next added opened?)
    (hdecreasing : draft.scopes.Pairwise fun inner outer => outer.indent < inner.indent) :
    next.scopes.Pairwise fun inner outer => outer.indent < inner.indent := by
  have hstays := (List.dropWhile_suffix (Frame.isClosedBy (Text.indent raw) (Text.isItem raw))
    (l := draft.scopes)).sublist
  have hrest : (Frame.resolve (Text.indent raw) (Text.isItem raw) draft.scopes).Pairwise
      fun inner outer => outer.indent < inner.indent := hdecreasing.sublist hstays
  rw [hopens.scopes]
  cases opened? with
  | none => exact hrest
  | some mark =>
    have hcolumn : mark.frame.indent = Text.indent raw := by
      simp [Mark.frame, Mark.column, hopens.start mark hopens.mem_added]
    have hdeeper := hopens.deeper mark rfl
    rw [Option.toList_some, List.map_singleton, List.singleton_append, List.pairwise_cons, hcolumn]
    refine ⟨fun frame hframe => ?_, hrest⟩
    -- the new container is deeper than the next one, and that is deeper than the others
    generalize Frame.resolve (Text.indent raw) (Text.isItem raw) draft.scopes = stays at hframe hrest hdeeper
    cases hframe with
    | head => exact hdeeper frame rfl
    | @tail top rest hframe =>
      have htop := hdeeper top rfl
      have hlt := (List.pairwise_cons.mp hrest).1 frame hframe
      omega

/-- The open containers of a draft are those that the lines read so far leave open. -/
structure Scoped (lines : List Text) (draft : Draft) : Prop where
  start : ∀ mark ∈ draft.marks, ∃ (k : Nat) (raw : Text), lines[k]? = some raw ∧
    mark.start? = some ((k : Int), (Text.indent raw : Int))
  decreasing : draft.scopes.Pairwise fun inner outer => outer.indent < inner.indent
  scopes : draft.scopes = ((draft.marks.filter (Mark.isOpen lines)).map Mark.frame).reverse

theorem empty_scoped (diagnostics : List Diagnostic) (first : Text) :
    Scoped [first] { empty with diagnostics } :=
  ⟨by simp [marks, places, empty, openPlaces, Node.placesForest], by simp [Draft.scopes, empty],
    by simp [marks, places, empty, openPlaces, Node.placesForest, Draft.scopes]⟩

theorem Scoped.isOpen_concat {lines : List Text} {draft : Draft} (hscoped : Scoped lines draft)
    {mark : Mark} (hmark : mark ∈ draft.marks) (raw : Text) :
    mark.isOpen (lines ++ [raw]) = (mark.isOpen lines && mark.content.outlasts mark.column raw) := by
  obtain ⟨k, opening, hopening, hstart⟩ := hscoped.start mark hmark
  exact Mark.isOpen_concat raw hstart (List.getElem?_eq_some_iff.mp hopening).1

theorem Scoped.start_concat {lines : List Text} {draft : Draft} (hscoped : Scoped lines draft)
    (raw : Text) : ∀ mark ∈ draft.marks, ∃ (k : Nat) (opening : Text),
      (lines ++ [raw])[k]? = some opening ∧ mark.start? = some ((k : Int), (Text.indent opening : Int)) := by
  intro mark hmark
  obtain ⟨k, opening, hopening, hstart⟩ := hscoped.start mark hmark
  have hk := (List.getElem?_eq_some_iff.mp hopening).1
  exact ⟨k, opening, by rwa [List.getElem?_append_left hk], hstart⟩

/-- The containers that a line leaves open are those that are open after it. -/
theorem Scoped.resolve {lines : List Text} {draft : Draft} (hscoped : Scoped lines draft) {raw : Text}
    (hblank : Text.trim raw ≠ []) :
    Frame.resolve (Text.indent raw) (Text.isItem raw) draft.scopes =
      ((draft.marks.filter (Mark.isOpen (lines ++ [raw]))).map Mark.frame).reverse := by
  have hopen : draft.marks.filter (Mark.isOpen (lines ++ [raw])) =
      (draft.marks.filter (Mark.isOpen lines)).filter fun mark => mark.content.admits mark.column raw := by
    rw [List.filter_filter]
    apply List.filter_congr
    intro mark hmark
    rw [hscoped.isOpen_concat hmark, Content.outlasts, decide_eq_false hblank, Bool.false_or, Bool.and_comm]
  -- closing from the inside out leaves the same containers as testing each of them
  rw [Frame.resolve_eq_filter _ _ hscoped.decreasing, hscoped.scopes, List.filter_reverse, List.filter_map,
    hopen]
  congr 2
  apply List.filter_congr
  intro mark _
  exact Frame.isClosedBy_mark_frame mark raw

theorem Scoped.step_of_blank {lines : List Text} {draft : Draft} (hscoped : Scoped lines draft)
    {raw : Text} (hblank : Text.trim raw = []) : Scoped (lines ++ [raw]) draft := by
  refine ⟨hscoped.start_concat raw, hscoped.decreasing, ?_⟩
  rw [hscoped.scopes]
  congr 2
  apply List.filter_congr
  intro mark hmark
  rw [hscoped.isOpen_concat hmark, Content.outlasts, decide_eq_true hblank, Bool.true_or, Bool.and_true]

theorem Scoped.step {lines : List Text} {draft : Draft} (hscoped : Scoped lines draft)
    (hshaped : draft.Shaped) (raw : Text) : Scoped (lines ++ [raw]) (draft.step lines.length raw) := by
  by_cases hblank : Text.trim raw = []
  · rw [show draft.step lines.length raw = draft by simp [Draft.step, hblank]]
    exact hscoped.step_of_blank hblank
  obtain ⟨added, opened?, hopens⟩ := hshaped.opens_step lines.length hblank
  refine ⟨?_, hopens.decreasing hscoped.decreasing, ?_⟩
  · rw [hopens.marks]
    refine List.forall_mem_append.mpr ⟨hscoped.start_concat raw, fun mark hmark => ?_⟩
    exact ⟨lines.length, raw, by simp, hopens.start mark hmark⟩
  · have hadded : added.filter (Mark.isOpen (lines ++ [raw])) = opened?.toList := by
      rw [← hopens.containers]
      apply List.filter_congr
      intro mark hmark
      exact Mark.isOpen_of_last raw (hopens.start mark hmark)
    rw [hopens.scopes, hopens.marks, hscoped.resolve hblank, List.filter_append, hadded, List.map_append,
      List.reverse_append]
    cases opened? <;> rfl

end Draft

namespace Document

theorem draft_concat (first : Text) (body : List Text) (raw : Text) :
    draft first (body ++ [raw]) = (draft first body).step (first :: body).length raw := by
  rw [draft, Draft.run_append, ← draft, Draft.run, Draft.run, List.length_cons]
  congr 1
  push_cast
  omega

theorem draft_shaped (first : Text) (body : List Text) : (draft first body).Shaped :=
  (Draft.empty_shaped _).run 1 body

theorem draft_scoped (first : Text) (body : List Text) : (draft first body).Scoped (first :: body) := by
  induction body using List.reverseRecOn with
  | nil => exact Draft.empty_scoped _ first
  | append_singleton body raw ih =>
    rw [draft_concat]
    exact ih.step (draft_shaped first body) raw

end Document

end ViewMarkup
