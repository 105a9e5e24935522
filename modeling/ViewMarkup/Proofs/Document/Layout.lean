import ViewMarkup.Proofs.Document.Bare
import ViewMarkup.Proofs.Document.Scope
import ViewMarkup.Proofs.Line.Moved

namespace ViewMarkup

/-- What stands side by side: nodes, or the items of a list. -/
inductive Level where
  | siblings
  | items
  deriving DecidableEq, Repr

/-- A forest of labels, as a first node with what is below it and what comes after it. The items of a
list are at least one. -/
inductive Sketch : Level → Type where
  | nil : Sketch .siblings
  | leaf (label : Text) (next : Sketch .siblings) : Sketch .siblings
  | branch (label : Text) (below next : Sketch .siblings) : Sketch .siblings
  | list (items : Sketch .items) (next : Sketch .siblings) : Sketch .siblings
  | last (label : Text) (below : Sketch .siblings) : Sketch .items
  | item (label : Text) (below : Sketch .siblings) (next : Sketch .items) : Sketch .items

namespace Sketch

/-- The node that a label gives by itself. -/
def nodeOf (label : Text) : Node :=
  ((SourceLine.read? ⟨label, 0, 0, false⟩).bind Reading.node?).getD (.leaf .unknown)

/-- What the label of an item gives inside a list. -/
def itemOf (label : Text) : Content :=
  ((prose? label true).map Node.content).getD .unknown

/-- The forest that a sketch stands for. -/
def forest {level : Level} : Sketch level → List Node
  | nil => []
  | leaf label next => nodeOf label :: next.forest
  | branch label below next => .mk (nodeOf label).content none below.forest :: next.forest
  | list items next => .mk (.element "ul" none []) none items.forest :: next.forest
  | last label below => [.mk (itemOf label) none below.forest]
  | item label below next => .mk (itemOf label) none below.forest :: next.forest

/-- Whether the first node is a list. -/
def startsWithList {level : Level} : Sketch level → Bool
  | list .. => true
  | _ => false

/-- A label that gives a node without faults. -/
def IsLabel (label : Text) (node : Node) : Prop :=
  ∃ log, SourceLine.read? ⟨label, 0, 0, false⟩ = some ⟨some node, [], log⟩

/-- The label of an item: it has the form of one, and gives one inside a list. -/
structure IsItemLabel (label : Text) : Prop where
  form : (item? label).isSome
  reads : ∃ node, prose? label true = some node ∧ node.content.isItem

/-- The sketches that can be laid out. Branches are components, loops and guards; leaves are no
containers and do not have the form of items; and no list follows another list. -/
def Valid {level : Level} : Sketch level → Prop
  | nil => True
  | leaf label next => (∃ node, IsLabel label node ∧ node.content.isContainer = false) ∧
      item? label = none ∧ next.Valid
  | branch label below next => (∃ node, IsLabel label node ∧ node.content.isContainer ∧
      node.content.isList = false ∧ node.content.isScript = false) ∧ below.Valid ∧ next.Valid
  | list items next => items.Valid ∧ next.startsWithList = false ∧ next.Valid
  | last label below => IsItemLabel label ∧ below.Valid
  | item label below next => IsItemLabel label ∧ below.Valid ∧ next.Valid

/-- A label on a line of its own. -/
structure Row (label : Text) (indent : Nat) (raw : Text) : Prop where
  indent : Text.indent raw = indent
  trim : Text.trim raw = label

/-- The lines of a sketch at an indent: one label a line, each node before what is below it and that
before what comes after. What is below a node is deeper than the node. -/
inductive Laid : {level : Level} → Nat → Sketch level → List Text → Prop where
  | nil {i : Nat} : Laid i .nil []
  | leaf {i : Nat} {label raw : Text} {next : Sketch .siblings} {rows : List Text}
      (hrow : Row label i raw) (hnext : Laid i next rows) : Laid i (.leaf label next) (raw :: rows)
  | branch {i j : Nat} {label raw : Text} {below next : Sketch .siblings} {inner rows : List Text}
      (hrow : Row label i raw) (hdeeper : i < j) (hbelow : Laid j below inner) (hnext : Laid i next rows) :
      Laid i (.branch label below next) (raw :: (inner ++ rows))
  | list {i : Nat} {items : Sketch .items} {next : Sketch .siblings} {inner rows : List Text}
      (hitems : Laid i items inner) (hnext : Laid i next rows) : Laid i (.list items next) (inner ++ rows)
  | last {i j : Nat} {label raw : Text} {below : Sketch .siblings} {inner : List Text}
      (hrow : Row label i raw) (hdeeper : i < j) (hbelow : Laid j below inner) :
      Laid i (.last label below) (raw :: inner)
  | item {i j : Nat} {label raw : Text} {below : Sketch .siblings} {next : Sketch .items}
      {inner rows : List Text} (hrow : Row label i raw) (hdeeper : i < j) (hbelow : Laid j below inner)
      (hnext : Laid i next rows) : Laid i (.item label below next) (raw :: (inner ++ rows))

end Sketch

namespace Draft

/-- Every open container is shallower than the given indent. -/
def Below (indent : Int) (draft : Draft) : Prop :=
  ∀ frame ∈ draft.frames, frame.indent < indent

theorem Below.mono {draft : Draft} {indent indent' : Int} (hbelow : draft.Below indent)
    (hle : indent ≤ indent') : draft.Below indent' :=
  fun frame hframe => Int.lt_of_lt_of_le (hbelow frame hframe) hle

theorem Below.isClosedBy {draft : Draft} {indent : Int} (hbelow : draft.Below indent)
    {frame : Frame OpenNode} (hframe : frame ∈ draft.frames) (isItem : Bool) :
    frame.isClosedBy indent isItem = false :=
  Frame.isClosedBy_eq_false_iff.mpr (.inl (hbelow frame hframe))

/-- A line closes nothing if every open container is shallower. -/
theorem Below.close_eq {draft : Draft} {indent : Int} (hbelow : draft.Below indent) (isItem : Bool) :
    draft.close indent isItem = draft := by
  obtain ⟨roots, frames, diagnostics, imports, log⟩ := draft
  cases frames with
  | nil => simp [close, settle]
  | cons frame frames =>
    have hopen : frame.isClosedBy indent isItem = false := hbelow.isClosedBy List.mem_cons_self isItem
    simp [close, settle, hopen]

/-- A container that a line closes goes into the one around it. -/
theorem Below.close_push {draft : Draft} {indent : Int} (hbelow : draft.Below indent) {isItem : Bool}
    {frame : Frame OpenNode} (hclosed : frame.isClosedBy indent isItem) :
    (draft.push frame).close indent isItem = draft.adopt frame.item.node := by
  cases hframes : draft.frames with
  | nil => simp [close, push, adopt, hframes, settle, hclosed]
  | cons outer frames =>
    have hopen : outer.isClosedBy indent isItem = false := hbelow.isClosedBy (by simp [hframes]) isItem
    simp [close, push, adopt, hframes, settle, hclosed, hopen]

theorem close_push_of_open {draft : Draft} {indent : Int} {isItem : Bool} {frame : Frame OpenNode}
    (hopen : frame.isClosedBy indent isItem = false) :
    (draft.push frame).close indent isItem = draft.push frame := by
  simp [close, push, settle, hopen]

theorem Below.adopt {draft : Draft} {indent : Int} (hbelow : draft.Below indent) (node : Node) :
    (draft.adopt node).Below indent := by
  unfold Draft.adopt
  split
  · exact hbelow
  · rename_i frame frames hframes
    rw [Below, hframes] at hbelow
    intro other hother
    obtain rfl | hother := List.mem_cons.mp hother
    · exact hbelow frame List.mem_cons_self
    · exact hbelow other (List.mem_cons_of_mem _ hother)

theorem Below.push {draft : Draft} {indent : Int} (hbelow : draft.Below indent) {frame : Frame OpenNode}
    (hframe : frame.indent < indent) : (draft.push frame).Below indent :=
  List.forall_mem_cons.mpr ⟨hframe, hbelow⟩

theorem inScript_adopt (draft : Draft) (node : Node) : (draft.adopt node).inScript = draft.inScript := by
  unfold Draft.adopt
  split
  · rfl
  · rename_i frame frames hframes
    rw [inScript, inScript, hframes]
    rfl

/-- What a deeper line closes, a shallower one closes too. -/
theorem close_of_deeper {draft : Draft} {indent deeper : Int} (hlt : indent < deeper) (isItem : Bool) :
    (draft.close deeper false).close indent isItem = draft.close indent isItem := by
  apply close_close
  intro frame hclosed
  have hle : deeper ≤ frame.indent := by simpa [Frame.isClosedBy] using hclosed
  by_contra hopen
  rw [Bool.not_eq_true, Frame.isClosedBy_eq_false_iff] at hopen
  omega

/-- What an item closes, any line of its indent closes too. -/
theorem close_of_item (draft : Draft) (indent : Int) :
    (draft.close indent true).close indent false = draft.close indent false := by
  apply close_close
  intro frame hclosed
  have hle := (Bool.and_eq_true_iff.mp hclosed).1
  simpa [Frame.isClosedBy] using hle

/-- The draft with finished nodes, one after the other. -/
def adoptAll (draft : Draft) (nodes : List Node) : Draft :=
  nodes.foldl adopt draft

theorem bare_adoptAll_congr {first second : Draft} (hbare : first.bare = second.bare) (nodes : List Node) :
    (first.adoptAll nodes).bare = (second.adoptAll nodes).bare := by
  induction nodes generalizing first second with
  | nil => exact hbare
  | cons node nodes ih => exact ih (bare_adopt_congr hbare rfl)

/-- Nodes that are below no container are roots. -/
theorem adoptAll_of_frames_nil {draft : Draft} (hframes : draft.frames = []) (nodes : List Node) :
    draft.adoptAll nodes = { draft with roots := draft.roots ++ nodes } := by
  induction nodes generalizing draft with
  | nil => simp [adoptAll]
  | cons node nodes ih =>
    have hadopt : draft.adopt node = { draft with roots := draft.roots ++ [node] } := by
      simp [Draft.adopt, hframes]
    have hrest := @ih { draft with roots := draft.roots ++ [node] } hframes
    rw [adoptAll, List.foldl_cons, hadopt, ← adoptAll, hrest]
    simp

/-- Nodes below a container that is no list are its children. -/
theorem adoptAll_push {frame : Frame OpenNode} (hlist : frame.item.content.isList = false) (draft : Draft)
    (nodes : List Node) :
    (draft.push frame).adoptAll nodes =
      draft.push { frame with item := { frame.item with children := frame.item.children ++ nodes } } := by
  induction nodes generalizing frame with
  | nil => simp [adoptAll]
  | cons node nodes ih =>
    have hpass : frame.item.passesOn node = false := by simp [OpenNode.passesOn, hlist]
    have hadopt : (draft.push frame).adopt node = draft.push { frame with
        item := { frame.item with children := frame.item.children ++ [node] } } := by
      simp [Draft.adopt, push, OpenNode.adopt, hpass]
    have hrest := @ih { frame with
      item := { frame.item with children := frame.item.children ++ [node] } } hlist
    rw [adoptAll, List.foldl_cons, hadopt, ← adoptAll, hrest, List.append_assoc, List.singleton_append]

/-- Nodes below a list that are no items are children of its last item. -/
theorem adoptAll_push_list {frame : Frame OpenNode} (hlist : frame.item.content.isList) (draft : Draft)
    {items : List Node} {content : Content} {span? : Option Span} {children : List Node}
    (hchildren : frame.item.children = items ++ [.mk content span? children]) {nodes : List Node}
    (hnodes : ∀ node ∈ nodes, node.content.isItem = false) :
    (draft.push frame).adoptAll nodes = draft.push { frame with
      item := { frame.item with children := items ++ [.mk content span? (children ++ nodes)] } } := by
  induction nodes generalizing frame children with
  | nil => simp [adoptAll, ← hchildren]
  | cons node nodes ih =>
    have hnot := hnodes node List.mem_cons_self
    have hpass : frame.item.passesOn node := by simp [OpenNode.passesOn, hlist, hchildren, hnot]
    have hadopt : (draft.push frame).adopt node = draft.push { frame with
        item := { frame.item with children := items ++ [.mk content span? (children ++ [node])] } } := by
      simp [Draft.adopt, push, OpenNode.adopt, hpass, hchildren, OpenNode.mapLast_concat, Node.append]
    have hrest := @ih { frame with
      item := { frame.item with children := items ++ [.mk content span? (children ++ [node])] } }
      hlist _ rfl (fun other hother => hnodes other (List.mem_cons_of_mem _ hother))
    rw [adoptAll, List.foldl_cons, hadopt, ← adoptAll, hrest, List.append_assoc, List.singleton_append]

/-- A line that gives a node without faults opens it or puts it in place. -/
theorem bare_step_of_read {draft : Draft} {line : Int} {raw : Text} (hblank : Text.trim raw ≠ [])
    (hscript : (draft.closedBy raw).inScript = false) {node : Node} {log : List LogRecord}
    (hread : ((draft.closedBy raw).sourceLine line raw).read? = some ⟨some node, [], log⟩) :
    (draft.step line raw).bare =
      if node.content.isContainer then ((draft.closedBy raw).push (Frame.opened node line raw)).bare
      else ((draft.closedBy raw).adopt node).bare := by
  have hstep := step_cases draft line raw
  generalize draft.step line raw = next at hstep ⊢
  cases hstep with
  | blank hnil => exact absurd hnil hblank
  | hoisted _ hin => simp [hin] at hscript
  | captured _ _ hframes hcontent => simp [inScript, hframes, hcontent, Content.isScript] at hscript
  | dropped _ _ hdropped => simp [hread] at hdropped
  | @attached _ _ other faults log' hattached =>
    obtain ⟨rfl, rfl, rfl⟩ : node = other ∧ [] = faults ∧ log = log' := by
      simpa [hread] using hattached
    have hreporting : ((draft.closedBy raw).reporting [] log).bare = (draft.closedBy raw).bare := by
      simp [bare, reporting]
    have htouch := bare_touch ((draft.closedBy raw).reporting [] log) (node.place (lineSpan line raw))
      line raw.length
    rw [hreporting] at htouch
    rw [bare_extendTo, attach_eq]
    split
    · exact bare_push_congr htouch rfl
    · exact bare_adopt_congr htouch (Node.bare_place _ node)

end Draft

namespace Sketch

theorem read?_nil (number indent : Int) (inList : Bool) :
    SourceLine.read? ⟨[], number, indent, inList⟩ = none := by
  rfl

theorem IsLabel.ne_nil {label : Text} {node : Node} (hlabel : IsLabel label node) : label ≠ [] := by
  rintro rfl
  obtain ⟨log, hread⟩ := hlabel
  rw [read?_nil] at hread
  cases hread

theorem IsLabel.nodeOf_eq {label : Text} {node : Node} (hlabel : IsLabel label node) : nodeOf label = node := by
  obtain ⟨log, hread⟩ := hlabel
  simp [nodeOf, hread]

/-- What a line with a label does, if the label has not the form of an item. -/
theorem Row.bare_step {label raw : Text} {i : Nat} (hrow : Row label i raw) {node : Node}
    (hlabel : IsLabel label node) (hitem : item? label = none) (draft : Draft) (line : Int)
    (hscript : (draft.close i false).inScript = false) :
    (draft.step line raw).bare =
      if node.content.isContainer then ((draft.close i false).push (Frame.opened node line raw)).bare
      else ((draft.close i false).adopt node).bare := by
  have hnot : Text.isItem raw = false := by simp [Text.isItem, hrow.trim, hitem]
  have hclosed : draft.closedBy raw = draft.close i false := by rw [Draft.closedBy, hrow.indent, hnot]
  obtain ⟨log, hread⟩ := hlabel
  have htrimmed : SourceLine.trimmed ⟨label, 0, 0, false⟩ =
      ((draft.closedBy raw).sourceLine line raw).trimmed := by
    simp [SourceLine.trimmed, Draft.sourceLine, ← hrow.trim]
  have hlist : false = ((draft.closedBy raw).sourceLine line raw).inList := by
    simp [Draft.sourceLine, hnot]
  have hread' := SourceLine.read?_eq_some_of_trimmed hread htrimmed hlist
  rw [← hclosed] at hscript ⊢
  exact Draft.bare_step_of_read (by rw [hrow.trim]; exact IsLabel.ne_nil ⟨log, hread⟩) hscript hread'

/-- What a line with the label of an item does: it goes on with a list at its indent. -/
theorem Row.bare_step_of_item {label raw : Text} {i : Nat} (hrow : Row label i raw)
    (hform : (item? label).isSome) (draft : Draft) (line : Int)
    (hscript : (draft.close i true).inScript = false) {node : Node}
    (hprose : prose? label (Frame.inList i (draft.close i true).frames) = some node) :
    (draft.step line raw).bare =
      if node.content.isContainer then ((draft.close i true).push (Frame.opened node line raw)).bare
      else ((draft.close i true).adopt node).bare := by
  have hitem : Text.isItem raw = true := by rw [Text.isItem, hrow.trim, hform]
  have hclosed : draft.closedBy raw = draft.close i true := by rw [Draft.closedBy, hrow.indent, hitem]
  have htrimmed : ((draft.closedBy raw).sourceLine line raw).trimmed = label := by
    rw [← hrow.trim]
    rfl
  have hread : ((draft.closedBy raw).sourceLine line raw).read? = some ⟨some node, [], []⟩ := by
    rw [SourceLine.read?_eq_prose?_of_item (by rw [htrimmed, hform]), SourceLine.prose?, htrimmed, hclosed]
    simp [Draft.sourceLine, hitem, hrow.indent, hprose, Reading.ofNode]
  have hblank : Text.trim raw ≠ [] := by
    obtain ⟨rest, hrest⟩ := exists_cons_of_item? hform
    simp [hrow.trim, hrest]
  rw [← hclosed] at hscript ⊢
  exact Draft.bare_step_of_read hblank hscript hread

/-- The frame of a list with the given items. -/
def listFrame (i : Nat) (items : List Node) : Frame OpenNode :=
  ⟨i, true, ⟨.element "ul" none [], ⟨0, 0, 0, 0⟩, items, none⟩⟩

theorem IsItemLabel.prose?_eq {label : Text} (hlabel : IsItemLabel label) :
    prose? label true = some (.leaf (itemOf label)) ∧ (itemOf label).isItem := by
  obtain ⟨node, hprose, hitem⟩ := hlabel.reads
  have hnode : node = .leaf node.content := by
    cases prose?_prose hprose with
    | plain | item => rfl
    | list _ _ hlist => cases hlist
    | emphasis htag =>
      rw [← Content.role?_eq_item_iff] at hitem
      simp [emphasis, Node.content, Node.role?_of_emphasisTag htag] at hitem
  have hitemOf : itemOf label = node.content := by simp [itemOf, hprose]
  rw [hitemOf]
  exact ⟨by rw [hprose, ← hnode], hitem⟩

/-- The state in which the items of a list are read: the list is open with the items so far, or is
still to be opened if there are none. -/
def atItems (base : Draft) (i : Nat) (items : List Node) : Draft :=
  if items = [] then base else base.push (listFrame i items)

/-- A line with the label of an item adds the item to the list, and opens the list if it is the first. -/
theorem Row.bare_step_atItems {label raw : Text} {i : Nat} (hrow : Row label i raw)
    (hlabel : IsItemLabel label) {draft base : Draft} {items : List Node} (hbelow : base.Below i)
    (hscript : base.inScript = false)
    (hstate : (draft.close i true).bare = (atItems base i items).bare) (line : Int) :
    (draft.step line raw).bare = (base.push (listFrame i (items ++ [.leaf (itemOf label)]))).bare := by
  obtain ⟨hprose, hitem⟩ := hlabel.prose?_eq
  by_cases hitems : items = []
  · -- the first item comes in a list of its own
    subst hitems
    have hinList : Frame.inList i (draft.close i true).frames = false := by
      rw [Draft.inList_congr hstate, atItems, if_pos rfl]
      cases hframes : base.frames with
      | nil => rfl
      | cons frame frames =>
        have hlt := hbelow frame (by simp [hframes])
        simp only [Frame.inList, Bool.and_eq_false_iff, beq_eq_false_iff_ne]
        left
        omega
    have hlist : prose? label (Frame.inList i (draft.close i true).frames) =
        some (.mk (.element "ul" none []) none [.leaf (itemOf label)]) := by
      rw [hinList, prose?_false, hprose, Option.map_some, Node.asList]
      exact congrArg some (if_pos hitem)
    rw [hrow.bare_step_of_item hlabel.form draft line (by rw [Draft.inScript_congr hstate]; exact hscript) hlist]
    refine (if_pos rfl).trans (Draft.bare_push_congr hstate ?_)
    simp [Frame.bare, Frame.opened, listFrame, OpenNode.bare, Node.content, Content.isList, hrow.indent,
      Node.place, Node.children]
  · have hstate' : (draft.close i true).bare = (base.push (listFrame i items)).bare := by
      rw [hstate, atItems, if_neg hitems]
    have hlist : prose? label (Frame.inList i (draft.close i true).frames) = some (.leaf (itemOf label)) := by
      rw [Draft.inList_congr hstate']
      simpa [Draft.push, Frame.inList, listFrame] using hprose
    rw [hrow.bare_step_of_item hlabel.form draft line (by rw [Draft.inScript_congr hstate']; rfl) hlist,
      if_neg (by simp [Node.leaf, Node.content, Content.not_isContainer_of_isItem hitem]),
      Draft.bare_adopt_congr hstate' rfl]
    have hpass : (listFrame i items).item.passesOn (.leaf (itemOf label)) = false := by
      simp [OpenNode.passesOn, Node.leaf, Node.content, hitem]
    unfold Draft.adopt Draft.push
    simp only [OpenNode.adopt, hpass]
    rfl

/-- Reading the lines of a sketch adds its forest to the draft, up to places. Siblings are added when
the line has closed what is as deep as they are; if they start with a list, no list may be open there,
since its items would go on with it. Items are added to their list. -/
def Recovers (first : Text) : {level : Level} → Nat → Sketch level → List Text → Prop
  | .siblings, i, sketch, rows => ∀ earlier,
      ((Document.draft first earlier).close i false).inScript = false →
      (sketch.startsWithList → ((Document.draft first earlier).close i true).bare =
        ((Document.draft first earlier).close i false).bare) →
      ((Document.draft first (earlier ++ rows)).close i false).bare =
        (((Document.draft first earlier).close i false).adoptAll sketch.forest).bare
  | .items, i, sketch, rows => ∀ earlier (base : Draft) (items : List Node),
      base.Below i → base.inScript = false →
      ((Document.draft first earlier).close i true).bare = (atItems base i items).bare →
      ((Document.draft first (earlier ++ rows)).close i true).bare =
        (base.push (listFrame i (items ++ sketch.forest))).bare

theorem below_close (first : Text) (body : List Text) (i : Int) :
    ((Document.draft first body).close i false).Below i := by
  intro frame hframe
  have hclose := Draft.map_close_frames Frame.head (fun _ _ => rfl) (Document.draft first body) i false
  have hhead : frame.head ∈ ((Document.draft first body).close i false).frames.map Frame.head :=
    List.mem_map_of_mem hframe
  have hresolve : (Frame.resolve i false (Document.draft first body).frames).map Frame.head =
      Frame.resolve i false (Document.draft first body).scopes := by
    rw [Frame.resolve, Frame.resolve, Draft.scopes, List.dropWhile_map]
    rfl
  rw [hclose, hresolve, Frame.resolve_eq_filter _ _ (Document.draft_scoped first body).decreasing] at hhead
  have hopen := (List.mem_filter.mp hhead).2
  rw [Bool.not_eq_true', Frame.isClosedBy_eq_false_iff] at hopen
  obtain hlt | ⟨hitem, _⟩ := hopen
  · exact hlt
  · cases hitem

/-- What is below an open container is added to it. -/
theorem Recovers.below {first : Text} {i j : Nat} {sketch : Sketch .siblings} {rows : List Text}
    (hrecovers : Recovers first j sketch rows) (hdeeper : i < j) {earlier : List Text} {base : Draft}
    {frame : Frame OpenNode} (hbelow : base.Below i) (hindent : frame.indent = i)
    (hscript : frame.item.content.isScript = false)
    (hstate : (Document.draft first earlier).bare = (base.push frame).bare) :
    ((Document.draft first (earlier ++ rows)).close j false).bare =
      ((base.push frame).adoptAll sketch.forest).bare := by
  have hpushed : (base.push frame).Below j :=
    (hbelow.mono (by omega)).push (by omega)
  have hclose : ∀ isItem, ((Document.draft first earlier).close j isItem).bare = (base.push frame).bare := by
    intro isItem
    rw [Draft.bare_close_congr hstate, hpushed.close_eq]
  have hrun := hrecovers earlier (by rw [Draft.inScript_congr (hclose false)]; simpa [Draft.inScript, Draft.push])
    (fun _ => by rw [hclose, hclose])
  rw [hrun]
  exact Draft.bare_adoptAll_congr (hclose false) _

/-- The nodes after a node that is in place, or that its next sibling closes, are added after it. -/
theorem Recovers.next {first : Text} {i : Nat} {sketch : Sketch .siblings} {rows : List Text}
    (hrecovers : Recovers first i sketch rows) {earlier : List Text} {base : Draft} {node : Node}
    (hscript : base.inScript = false)
    (hclose : ((Document.draft first earlier).close i false).bare = (base.adopt node).bare)
    (hclose' : sketch.startsWithList →
      ((Document.draft first earlier).close i true).bare = (base.adopt node).bare) :
    ((Document.draft first (earlier ++ rows)).close i false).bare =
      (base.adoptAll (node :: sketch.forest)).bare := by
  have hscript' : ((Document.draft first earlier).close i false).inScript = false := by
    rw [Draft.inScript_congr hclose, Draft.inScript_adopt, hscript]
  rw [hrecovers earlier hscript' (fun hstarts => by rw [hclose, hclose' hstarts])]
  exact Draft.bare_adoptAll_congr hclose _

theorem recovers_leaf {first label raw : Text} {i : Nat} {next : Sketch .siblings} {rows : List Text}
    (hrow : Row label i raw) {node : Node} (hlabel : IsLabel label node)
    (hcontainer : node.content.isContainer = false) (hitem : item? label = none)
    (hnext : Recovers first i next rows) : Recovers first i (.leaf label next) (raw :: rows) := by
  intro earlier hscript _
  have hbelow := below_close first earlier i
  have hstep : (Document.draft first (earlier ++ [raw])).bare =
      (((Document.draft first earlier).close i false).adopt node).bare := by
    rw [Document.draft_concat, hrow.bare_step hlabel hitem _ _ hscript, if_neg (by simp [hcontainer])]
  have hclose : ∀ isItem, ((Document.draft first (earlier ++ [raw])).close i isItem).bare =
      (((Document.draft first earlier).close i false).adopt node).bare := by
    intro isItem
    rw [Draft.bare_close_congr hstep, (hbelow.adopt node).close_eq]
  have hrun := hnext.next hscript (hclose false) (fun _ => hclose true)
  rwa [List.append_assoc, List.singleton_append, ← hlabel.nodeOf_eq] at hrun

/-- The label of a branch gives a node with nothing below it, and has not the form of an item. -/
theorem IsLabel.branch {label : Text} {node : Node} (hlabel : IsLabel label node)
    (htrim : Text.trim label = label) (hcontainer : node.content.isContainer)
    (hlist : node.content.isList = false) : node.children = [] ∧ item? label = none := by
  obtain ⟨log, hread⟩ := hlabel
  constructor
  · cases SourceLine.read?_outcome hread with
    | kept _ _ _ hfresh =>
      cases hfresh with
      | plain => rfl
      | prose hprose => simp [(hprose.isList_of_isContainer hcontainer).1] at hlist
  · by_contra hitem
    have hform : (item? (SourceLine.trimmed ⟨label, 0, 0, false⟩)).isSome := by
      rw [SourceLine.trimmed, htrim]
      exact Option.isSome_iff_ne_none.mpr hitem
    simp [(SourceLine.isList_of_item hform hread rfl hcontainer).1] at hlist

theorem recovers_branch {first label raw : Text} {i j : Nat} {below next : Sketch .siblings}
    {inner rows : List Text} (hrow : Row label i raw) {node : Node} (hlabel : IsLabel label node)
    (hcontainer : node.content.isContainer) (hlist : node.content.isList = false)
    (hnotScript : node.content.isScript = false) (hdeeper : i < j)
    (hbelow : Recovers first j below inner) (hnext : Recovers first i next rows) :
    Recovers first i (.branch label below next) (raw :: (inner ++ rows)) := by
  intro earlier hscript _
  have hbase := below_close first earlier i
  obtain ⟨hchildren, hitem⟩ := hlabel.branch (by rw [← hrow.trim, Text.trim_trim]) hcontainer hlist
  have hstep := hrow.bare_step hlabel hitem _ (first :: earlier).length hscript
  rw [← Document.draft_concat, if_pos hcontainer] at hstep
  have hinner := hbelow.below hdeeper hbase (by simp [Frame.opened, hrow.indent]) hnotScript hstep
  rw [Draft.adoptAll_push hlist] at hinner
  -- a line of the same indent closes the branch, whether it is an item or not
  have hclose : ∀ isItem, ((Document.draft first (earlier ++ [raw] ++ inner)).close i isItem).bare =
      (((Document.draft first earlier).close i false).adopt
        (.mk (nodeOf label).content none below.forest)).bare := by
    intro isItem
    rw [← Draft.close_of_deeper (by exact_mod_cast hdeeper : (i : Int) < j), Draft.bare_close_congr hinner,
      hbase.close_push (by simp [Frame.isClosedBy, Frame.opened, hrow.indent, hlist])]
    apply Draft.bare_adopt_congr rfl
    obtain ⟨content, span?, children⟩ := node
    obtain rfl : children = [] := hchildren
    simp [OpenNode.node, Frame.opened, Node.bare_mk, Node.children, Node.place, Node.content, hlabel.nodeOf_eq]
  have hrun := hnext.next hscript (hclose false) (fun _ => hclose true)
  rwa [List.append_assoc, List.append_assoc, List.singleton_append] at hrun

theorem recovers_list {first : Text} {i : Nat} {items : Sketch .items} {next : Sketch .siblings}
    {inner rows : List Text} (hitems : Recovers first i items inner) (hnext : Recovers first i next rows)
    (hstarts : next.startsWithList = false) :
    Recovers first i (.list items next) (inner ++ rows) := by
  intro earlier hscript hnone
  have hbase := below_close first earlier i
  have hlist := hitems earlier _ [] hbase hscript (hnone rfl)
  rw [List.nil_append] at hlist
  -- the list stays open for items only, so what comes next must not start with one
  have hclose : ((Document.draft first (earlier ++ inner)).close i false).bare =
      (((Document.draft first earlier).close i false).adopt
        (.mk (.element "ul" none []) none items.forest)).bare := by
    rw [← Draft.close_of_item, Draft.bare_close_congr hlist,
      hbase.close_push (by simp [Frame.isClosedBy, listFrame])]
    apply Draft.bare_adopt_congr rfl
    simp [OpenNode.node, listFrame, Node.bare_mk]
  have hrun := hnext.next hscript hclose (fun hlists => by simp [hstarts] at hlists)
  rwa [List.append_assoc] at hrun

/-- An item with what is below it is added to its list, which stays open for the next item. -/
theorem Recovers.item {first label raw : Text} {i j : Nat} {below : Sketch .siblings} {inner : List Text}
    (hbelow : Recovers first j below inner) (hrow : Row label i raw) (hlabel : IsItemLabel label)
    (hdeeper : i < j) (hforest : ∀ node ∈ below.forest, node.content.isItem = false)
    {earlier : List Text} {base : Draft} {items : List Node} (hbase : base.Below i)
    (hscript : base.inScript = false)
    (hstate : ((Document.draft first earlier).close i true).bare = (atItems base i items).bare) :
    ((Document.draft first (earlier ++ raw :: inner)).close i true).bare =
      (base.push (listFrame i (items ++ [.mk (itemOf label) none below.forest]))).bare := by
  have hstep := hrow.bare_step_atItems hlabel hbase hscript hstate (first :: earlier).length
  rw [← Document.draft_concat] at hstep
  have hinner := hbelow.below hdeeper hbase rfl rfl hstep
  -- the list is the open container, and hands on to the item what is below the item
  rw [Draft.adoptAll_push_list rfl base rfl hforest, List.append_assoc, List.singleton_append] at hinner
  rw [← Draft.close_of_deeper (by exact_mod_cast hdeeper : (i : Int) < j), Draft.bare_close_congr hinner,
    Draft.close_push_of_open (by simp [Frame.isClosedBy, listFrame])]
  rfl

theorem IsLabel.fresh {label : Text} {node : Node} (hlabel : IsLabel label node) : node.Fresh false := by
  obtain ⟨log, hread⟩ := hlabel
  cases SourceLine.read?_outcome hread with
  | kept _ _ _ hfresh => exact hfresh

theorem IsLabel.not_isItem {label : Text} {node : Node} (hlabel : IsLabel label node) :
    node.content.isItem = false := by
  cases hitem : node.content.isItem with
  | false => rfl
  | true =>
    obtain hblock | ⟨_, hlist⟩ := hlabel.fresh.isBlock_or_item
    · exact absurd (Content.role?_eq_item_iff.mpr hitem) hblock.2
    · cases hlist

/-- Nodes beside each other are no items; those are inside lists. -/
theorem not_isItem_of_mem_forest : ∀ {sketch : Sketch .siblings}, sketch.Valid →
    ∀ node ∈ sketch.forest, node.content.isItem = false
  | .nil, _ => by simp [forest]
  | .leaf label next, ⟨⟨node, hlabel, _⟩, _, hnext⟩ => by
    refine List.forall_mem_cons.mpr ⟨?_, not_isItem_of_mem_forest hnext⟩
    rw [hlabel.nodeOf_eq, hlabel.not_isItem]
  | .branch label below next, ⟨⟨node, hlabel, _⟩, _, hnext⟩ => by
    refine List.forall_mem_cons.mpr ⟨?_, not_isItem_of_mem_forest hnext⟩
    rw [hlabel.nodeOf_eq, Node.content, hlabel.not_isItem]
  | .list items next, ⟨_, _, hnext⟩ =>
    List.forall_mem_cons.mpr ⟨rfl, not_isItem_of_mem_forest hnext⟩

theorem Laid.recovers {level : Level} {i : Nat} {sketch : Sketch level} {rows : List Text}
    (hlaid : Laid i sketch rows) (hvalid : sketch.Valid) (first : Text) : Recovers first i sketch rows := by
  -- siblings and items go through one induction, since each kind is laid out below the other
  induction hlaid with
  | nil =>
    intro earlier _ _
    rw [List.append_nil]
    rfl
  | leaf hrow _ ihnext =>
    obtain ⟨⟨node, hlabel, hcontainer⟩, hitem, hnext⟩ := hvalid
    exact recovers_leaf hrow hlabel hcontainer hitem (ihnext hnext)
  | branch hrow hdeeper _ _ ihbelow ihnext =>
    obtain ⟨⟨node, hlabel, hcontainer, hlist, hscript⟩, hbelow, hnext⟩ := hvalid
    exact recovers_branch hrow hlabel hcontainer hlist hscript hdeeper (ihbelow hbelow) (ihnext hnext)
  | list _ _ ihitems ihnext =>
    obtain ⟨hitems, hstarts, hnext⟩ := hvalid
    exact recovers_list (ihitems hitems) (ihnext hnext) hstarts
  | last hrow hdeeper _ ihbelow =>
    obtain ⟨hlabel, hbelow⟩ := hvalid
    intro earlier base items hbase hscript hstate
    exact (ihbelow hbelow).item hrow hlabel hdeeper (not_isItem_of_mem_forest hbelow) hbase hscript hstate
  | @item i j label raw below next inner rows hrow hdeeper _ _ ihbelow ihnext =>
    obtain ⟨hlabel, hbelow, hnext⟩ := hvalid
    intro earlier base items hbase hscript hstate
    have hopen : atItems base i (items ++ [.mk (itemOf label) none below.forest]) =
        base.push (listFrame i (items ++ [.mk (itemOf label) none below.forest])) := if_neg (by simp)
    have hitem := (ihbelow hbelow).item hrow hlabel hdeeper (not_isItem_of_mem_forest hbelow) hbase hscript hstate
    rw [← hopen] at hitem
    have hrun := ihnext hnext _ base _ hbase hscript hitem
    rwa [List.append_assoc, List.append_assoc, List.cons_append, List.singleton_append] at hrun

theorem bare_of_fresh {inList : Bool} {node : Node} (hfresh : node.Fresh inList) : node.bare = node := by
  cases hfresh with
  | plain => rfl
  | prose hprose => cases hprose <;> rfl

/-- The forest of a sketch has no places. -/
theorem map_bare_forest {level : Level} {sketch : Sketch level} (hvalid : sketch.Valid) :
    sketch.forest.map Node.bare = sketch.forest := by
  induction sketch with
  | nil => rfl
  | leaf label next ihnext =>
    obtain ⟨⟨node, hlabel, _⟩, _, hnext⟩ := hvalid
    rw [forest, List.map_cons, ihnext hnext, hlabel.nodeOf_eq, bare_of_fresh hlabel.fresh]
  | branch label below next ihbelow ihnext =>
    obtain ⟨_, hbelow, hnext⟩ := hvalid
    rw [forest, List.map_cons, ihnext hnext, Node.bare_mk, ihbelow hbelow]
  | list items next ihitems ihnext =>
    obtain ⟨hitems, _, hnext⟩ := hvalid
    rw [forest, List.map_cons, ihnext hnext, Node.bare_mk, ihitems hitems]
  | last label below ihbelow =>
    rw [forest, List.map_singleton, Node.bare_mk, ihbelow hvalid.2]
  | item label below next ihbelow ihnext =>
    obtain ⟨_, hbelow, hnext⟩ := hvalid
    rw [forest, List.map_cons, ihnext hnext, Node.bare_mk, ihbelow hbelow]

end Sketch

namespace Document

/-- Every forest is recovered from its layout: if the lines below the signature line are those of a
sketch, at whatever indents, the document has the forest of the sketch, and nothing is reported but
what the signature line itself gives. -/
theorem nodes_of_laid {t first : Text} {rows : List Text} (hlines : Text.lines t = first :: rows)
    (hfirst : Text.trim first ≠ []) {sketch : Sketch .siblings} (hvalid : sketch.Valid) {i : Nat}
    (hlaid : Sketch.Laid i sketch rows) :
    Node.bareForest (ofText t).nodes = sketch.forest ∧
      (ofText t).diagnostics = (Signature.read first 0).2 := by
  have hrecovers := hlaid.recovers hvalid first [] rfl (fun _ => rfl)
  rw [List.nil_append, Draft.adoptAll_of_frames_nil rfl] at hrecovers
  rw [ofText_of_lines hlines hfirst]
  constructor
  · have hforest := Draft.bare_forest_congr hrecovers
    rw [Draft.forest_close] at hforest
    rw [Node.bareForest_eq_map, hforest]
    change ([] ++ sketch.forest ++ []).map Node.bare = sketch.forest
    rw [List.nil_append, List.append_nil, Sketch.map_bare_forest hvalid]
  · exact (Draft.bare_eq_iff.mp hrecovers).2.2.1

theorem nodes_of_laid_guard :
    Node.bareForest (ofText "Page()\n:if ok\n  - a\n    b\n  - c\nd").nodes =
        (Sketch.branch ":if ok" (.list (.item "- a" (.leaf "b" .nil) (.last "- c" .nil)) .nil)
          (.leaf "d" .nil)).forest ∧
      (ofText "Page()\n:if ok\n  - a\n    b\n  - c\nd").diagnostics = (Signature.read "Page()" 0).2 := by
  refine nodes_of_laid rfl (by decide) ?_ (i := 0) ?_
  · exact ⟨⟨_, ⟨_, rfl⟩, rfl, rfl, rfl⟩,
      ⟨⟨⟨rfl, _, rfl, rfl⟩, ⟨⟨_, ⟨_, rfl⟩, rfl⟩, rfl, trivial⟩, ⟨rfl, _, rfl, rfl⟩, trivial⟩, rfl, trivial⟩,
      ⟨_, ⟨_, rfl⟩, rfl⟩, rfl, trivial⟩
  · have hinner : Sketch.Laid 4 (.leaf "b" .nil) ["    b"] := .leaf ⟨rfl, rfl⟩ .nil
    have hlast : Sketch.Laid 2 (.last "- c" .nil) ["  - c"] := .last ⟨rfl, rfl⟩ (by decide : 2 < 3) .nil
    have hitems : Sketch.Laid 2 (.item "- a" (.leaf "b" .nil) (.last "- c" .nil))
        ("  - a" :: (["    b"] ++ ["  - c"])) :=
      .item ⟨rfl, rfl⟩ (by decide) hinner hlast
    have hnext : Sketch.Laid 0 (.leaf "d" .nil) ["d"] := .leaf ⟨rfl, rfl⟩ .nil
    have hrow : Sketch.Row ":if ok" 0 ":if ok" := ⟨rfl, rfl⟩
    exact Sketch.Laid.branch hrow (by decide) (.list hitems .nil) hnext

end Document

end ViewMarkup
