import Mathlib.Data.List.Nodup
import ViewMarkup.Proofs.Document.Script

namespace ViewMarkup

/-- The indent of a line. -/
def indentAt (lines : List Text) (k : Nat) : Int :=
  Text.indent (lines.getD k [])

/-- A container around line `l`. Line `k` before it opened the container, each line between that is
not blank left it open, and the container takes line `l` as well. -/
structure Encloses (lines : List Text) (nodes : List Node) (l k : Nat) (container : Node) : Prop where
  mem : container ∈ Node.preorderForest nodes
  isContainer : container.content.isContainer
  line : container.mark.line? = some (k : Int)
  before : k < l
  isOpen : ∀ j, k < j → j < l → Text.trim (lines.getD j []) ≠ [] →
    container.content.admits (indentAt lines k) (lines.getD j [])
  admits : container.content.admits (indentAt lines k) (lines.getD l [])

/-- The one container that was opened last, with its line, or none if there is no container. -/
def Innermost (encloses : Nat → Node → Prop) : Option (Nat × Node) → Prop
  | none => ∀ k container, ¬ encloses k container
  | some (k, container) => encloses k container ∧
      ∀ k' container', encloses k' container' → k' < k ∨ container' = container

/-- The item of a list that was the last one when line `l` was read. -/
structure LastItem (list : Node) (l : Nat) (item : Node) : Prop where
  mem : item ∈ list.children
  isItem : item.content.isItem
  last : ∃ line ∈ item.mark.line?, line < l ∧
    ∀ other ∈ list.children, ∀ line' ∈ other.mark.line?, line' < l → line' ≤ line

/-- The nodes among which a node of line `l` is put. What is no item goes into the last item of a
list. -/
inductive Siblings (nodes : List Node) (l : Nat) (content : Content) :
    Option (Nat × Node) → List Node → Prop where
  | root : Siblings nodes l content none nodes
  | inside {k : Nat} {container : Node} (hkeeps : container.content.isList → content.isItem) :
      Siblings nodes l content (some (k, container)) container.children
  | item {k : Nat} {list item : Node} (hlist : list.content.isList) (hnot : content.isItem = false)
      (hitem : LastItem list l item) : Siblings nodes l content (some (k, list)) item.children

/-- Line `l` as it is read below a container. An item goes on with a list of the same indent. -/
def lineBelow (lines : List Text) (l : Nat) (parent? : Option (Nat × Node)) : SourceLine :=
  ⟨lines.getD l [], l, indentAt lines l, Text.isItem (lines.getD l []) &&
    parent?.any fun parent => parent.2.content.isList && indentAt lines parent.1 == indentAt lines l⟩

/-- The lines between two lines. -/
def between (lines : List Text) (k l : Nat) : List Text :=
  (lines.take l).drop (k + 1)

/-- What becomes of line `l` below a container. In a script it is hoisted or becomes the line of the
script that follows the earlier ones; elsewhere it is dropped or gives a node. -/
inductive Placed (lines : List Text) (document : Document) (l : Nat) : Option (Nat × Node) → Prop where
  | hoisted {k : Nat} {script : Node} (hscript : script.content.isScript)
      (himport : isImport (Text.trim (lines.getD l [])))
      (hmem : Text.trim (lines.getD l []) ∈ document.imports) :
      Placed lines document l (some (k, script))
  | captured {k : Nat} {script : Node} {signature : Text} {body : List Text}
      (hscript : script.content = .script signature body)
      (himport : isImport (Text.trim (lines.getD l [])) = false)
      (hentry : body[(scriptLines (between lines k l)).length]? = some
        (scriptLine ((scriptMargin? (between lines k (l + 1))).getD 0) (lines.getD l []))) :
      Placed lines document l (some (k, script))
  | dropped {parent? : Option (Nat × Node)} (hscript : ∀ parent ∈ parent?, parent.2.content.isScript = false)
      {fault : Diagnostic} {log : List LogRecord}
      (hread : (lineBelow lines l parent?).read? = some ⟨none, [fault], log⟩) :
      Placed lines document l parent?
  | attached {parent? : Option (Nat × Node)} (hscript : ∀ parent ∈ parent?, parent.2.content.isScript = false)
      {node : Node} {faults : List Diagnostic} {log : List LogRecord}
      (hread : (lineBelow lines l parent?).read? = some ⟨some node, faults, log⟩)
      {siblings : List Node} (hsiblings : Siblings document.nodes l node.content parent? siblings)
      {child : Node} (hchild : child ∈ siblings) (hline : child.mark.line? = some (l : Int))
      (hcontent : child.content.head = node.content) :
      Placed lines document l parent?

theorem Draft.mem_imports_hoist (draft : Draft) (text : Text) : text ∈ (draft.hoist text).imports := by
  simp only [hoist]
  split
  · rename_i hcontains
    exact List.contains_iff_mem.mp hcontains
  · simp

theorem Content.exists_of_isScript {content : Content} (hscript : content.isScript) :
    ∃ signature body, content = .script signature body := by
  cases content with
  | script signature body => exact ⟨signature, body, rfl⟩
  | _ => cases hscript

theorem Draft.marks_eq_preorder (draft : Draft) :
    draft.marks = (Node.preorderForest draft.forest).map fun node => node.mark.head := by
  have hmarks := Node.map_mark_placesForest none draft.forest
  rw [places_forest] at hmarks
  have hheads := congrArg (List.map Mark.head) hmarks
  simpa [marks, Function.comp_def] using hheads

/-- A place of the finished forest is that of a root or of a child. -/
theorem Draft.mem_places_head {draft : Draft} {place : Place} :
    place ∈ draft.places.map Place.head ↔
      (∃ root ∈ draft.forest, place = ⟨none, root.mark.head⟩) ∨
      ∃ parent ∈ Node.preorderForest draft.forest, ∃ child ∈ parent.children,
        place = ⟨some parent.mark.head, child.mark.head⟩ := by
  rw [← places_forest, List.mem_map]
  constructor
  · rintro ⟨place, hplace, rfl⟩
    obtain ⟨root, hroot, rfl⟩ | ⟨parent, hparent, child, hchild, rfl⟩ := Node.mem_placesForest.mp hplace
    · exact .inl ⟨root, hroot, rfl⟩
    · exact .inr ⟨parent, hparent, child, hchild, rfl⟩
  · rintro (⟨root, hroot, rfl⟩ | ⟨parent, hparent, child, hchild, rfl⟩)
    · exact ⟨_, Node.mem_placesForest.mpr (.inl ⟨root, hroot, rfl⟩), rfl⟩
    · exact ⟨_, Node.mem_placesForest.mpr (.inr ⟨parent, hparent, child, hchild, rfl⟩), rfl⟩

/-- A container is open iff each later line that is not blank is one that it takes. -/
theorem Mark.isOpen_iff {lines : List Text} {mark : Mark} {k : Nat} {column : Int}
    (hstart : mark.start? = some ((k : Int), column)) :
    mark.isOpen lines ↔ mark.content.isContainer ∧ ∀ j, k < j → j < lines.length →
      Text.trim (lines.getD j []) ≠ [] → mark.content.admits column (lines.getD j []) := by
  have hcolumn : mark.column = column := by simp [Mark.column, hstart]
  have hbelow : mark.below lines = lines.drop (k + 1) := by simp [Mark.below, hstart]
  rw [Mark.isOpen, hbelow, hcolumn, Bool.and_eq_true, List.all_eq_true]
  apply and_congr_right
  intro _
  constructor
  · intro hall j hk hj hblank
    have hmem : lines.getD j [] ∈ lines.drop (k + 1) := by
      refine List.mem_iff_getElem?.mpr ⟨j - (k + 1), ?_⟩
      rw [List.getElem?_drop, show k + 1 + (j - (k + 1)) = j by omega]
      simp [List.getD_eq_getElem?_getD, List.getElem?_eq_getElem hj]
    have houtlasts := hall _ hmem
    rwa [Content.outlasts, decide_eq_false hblank, Bool.false_or] at houtlasts
  · intro hadmits raw hraw
    obtain ⟨i, hi⟩ := List.mem_iff_getElem?.mp hraw
    rw [List.getElem?_drop] at hi
    have hlt := (List.getElem?_eq_some_iff.mp hi).1
    have hget : lines.getD (k + 1 + i) [] = raw := by simp [List.getD_eq_getElem?_getD, hi]
    by_cases hblank : Text.trim raw = []
    · simp [Content.outlasts, hblank]
    · have htakes := hadmits (k + 1 + i) (by omega) hlt (by rwa [hget])
      rw [hget] at htakes
      simp [Content.outlasts, htakes]

/-- A container is open after a line that is not blank iff it was open before and takes the line. -/
theorem Mark.isOpen_concat_iff {lines earlier later : List Text} {raw : Text} {mark : Mark} {k : Nat}
    {column : Int} (hlines : lines = earlier ++ raw :: later) (hblank : Text.trim raw ≠ [])
    (hstart : mark.start? = some ((k : Int), column)) (hk : k < earlier.length) :
    mark.isOpen (earlier ++ [raw]) ↔ mark.content.isContainer ∧
      (∀ j, k < j → j < earlier.length → Text.trim (lines.getD j []) ≠ [] →
        mark.content.admits column (lines.getD j [])) ∧
      mark.content.admits column (lines.getD earlier.length []) := by
  have hbefore : ∀ j, j < earlier.length → (earlier ++ [raw]).getD j [] = lines.getD j [] := by
    intro j hj
    rw [hlines, List.getD_eq_getElem?_getD, List.getD_eq_getElem?_getD, List.getElem?_append_left hj,
      List.getElem?_append_left hj]
  have hlast : lines.getD earlier.length [] = raw := by simp [hlines, List.getD_eq_getElem?_getD]
  have hlast' : (earlier ++ [raw]).getD earlier.length [] = raw := by simp [List.getD_eq_getElem?_getD]
  rw [isOpen_iff hstart, List.length_append, List.length_singleton, hlast]
  apply and_congr_right
  intro _
  constructor
  · intro hall
    constructor
    · intro j hkj hj
      have hadmits := hall j hkj (by omega)
      rwa [hbefore j hj] at hadmits
    · have hadmits := hall earlier.length hk (by omega)
      rw [hlast'] at hadmits
      exact hadmits hblank
  · rintro ⟨hall, hadmits⟩ j hkj hj
    obtain hlt | rfl : j < earlier.length ∨ j = earlier.length := by omega
    · rw [hbefore j hlt]
      exact hall j hkj hlt
    · rw [hlast']
      exact fun _ => hadmits

namespace Document

theorem draft_grows (first : Text) (earlier later : List Text) :
    Draft.Grows (first :: earlier).length (1 + (earlier ++ later).length) (draft first earlier)
      (draft first (earlier ++ later)) := by
  have happend : draft first (earlier ++ later) = (draft first earlier).run (1 + earlier.length) later :=
    Draft.run_append _ _ _ _
  have hgrows := (draft_shaped first earlier).grows_run (1 + earlier.length) later
  rw [happend, List.length_cons, List.length_append]
  push_cast
  rw [show (earlier.length : Int) + 1 = 1 + earlier.length by omega, ← Int.add_assoc]
  exact hgrows

/-- No two nodes have the same mark. -/
theorem eq_of_head_mark {first : Text} {body : List Text} {node other : Node}
    (hnode : node ∈ Node.preorderForest (draft first body).forest)
    (hother : other ∈ Node.preorderForest (draft first body).forest)
    (hsame : node.mark.head = other.mark.head) : node = other := by
  have hnodup := draft_marks_nodup first body
  rw [Draft.marks_eq_preorder] at hnodup
  exact List.inj_on_of_nodup_map hnodup hnode hother hsame

theorem head_mem_marks {first : Text} {body : List Text} {node : Node}
    (hnode : node ∈ Node.preorderForest (draft first body).forest) :
    node.mark.head ∈ (draft first body).marks := by
  rw [Draft.marks_eq_preorder]
  exact List.mem_map_of_mem (f := fun node : Node => node.mark.head) hnode

/-- A node that is there before some lines is there after them. -/
theorem exists_of_mem_marks {first : Text} {earlier : List Text} (later : List Text) {mark : Mark}
    (hmark : mark ∈ (draft first earlier).marks) :
    ∃ node ∈ Node.preorderForest (draft first (earlier ++ later)).forest, node.mark.head = mark := by
  rw [Draft.marks_eq_map_head] at hmark
  obtain ⟨place, hplace, rfl⟩ := List.mem_map.mp hmark
  have hlater := (draft_grows first earlier later).mem_places hplace
  have hmem : place.mark ∈ (draft first (earlier ++ later)).marks := by
    rw [Draft.marks_eq_map_head]
    exact List.mem_map_of_mem hlater
  rw [Draft.marks_eq_preorder] at hmem
  exact List.mem_map.mp hmem

/-- A node on an earlier line was there before the later ones. -/
theorem mem_marks_of_lt {first : Text} {earlier later : List Text} {node : Node}
    (hnode : node ∈ Node.preorderForest (draft first (earlier ++ later)).forest) {line : Int}
    (hline : node.mark.line? = some line) (hlt : line < (first :: earlier).length) :
    node.mark.head ∈ (draft first earlier).marks := by
  have hmark := head_mem_marks hnode
  rw [Draft.marks_eq_map_head] at hmark
  obtain ⟨place, hplace, hsame⟩ := List.mem_map.mp hmark
  have hearlier := (draft_grows first earlier later).mem_places_of_lt hplace
    (by rw [hsame, Mark.line?_head, hline]) hlt
  rw [Draft.marks_eq_map_head, ← hsame]
  exact List.mem_map_of_mem hearlier

/-- A node starts at the indent of its line. -/
theorem start_eq_indentAt {first : Text} {earlier : List Text} (later : List Text) {mark : Mark}
    (hmark : mark ∈ (draft first earlier).marks) :
    ∃ k : Nat, k < (first :: earlier).length ∧
      mark.start? = some ((k : Int), indentAt (first :: (earlier ++ later)) k) := by
  obtain ⟨k, opening, hopening, hstart⟩ := (draft_scoped first earlier).start mark hmark
  have hlt := (List.getElem?_eq_some_iff.mp hopening).1
  have hget : (first :: (earlier ++ later)).getD k [] = opening := by
    rw [List.getD_eq_getElem?_getD, ← List.cons_append, List.getElem?_append_left hlt, hopening]
    rfl
  exact ⟨k, hlt, by rw [hstart, indentAt, hget]⟩

/-- A node on line `k` starts at the indent of that line. -/
theorem start_of_line {first : Text} {earlier : List Text} (later : List Text) {mark : Mark}
    (hmark : mark ∈ (draft first earlier).marks) {k : Nat} (hline : mark.line? = some (k : Int)) :
    k < (first :: earlier).length ∧
      mark.start? = some ((k : Int), indentAt (first :: (earlier ++ later)) k) := by
  obtain ⟨j, hlt, hstart⟩ := start_eq_indentAt later hmark
  obtain rfl : j = k := by
    rw [Mark.line?, hstart] at hline
    simpa using hline
  exact ⟨hlt, hstart⟩

/-- The containers around a line are those that are open when the line has closed what it closes. -/
theorem encloses_iff {first raw : Text} {earlier later : List Text} (hblank : Text.trim raw ≠ [])
    {k : Nat} {container : Node} :
    Encloses (first :: (earlier ++ raw :: later)) (draft first (earlier ++ raw :: later)).forest
        (first :: earlier).length k container ↔
      container ∈ Node.preorderForest (draft first (earlier ++ raw :: later)).forest ∧
        container.mark.line? = some (k : Int) ∧
        container.mark.head ∈ (draft first earlier).marks.filter
          (Mark.isOpen (first :: earlier ++ [raw])) := by
  have hlines : first :: (earlier ++ raw :: later) = first :: earlier ++ raw :: later := rfl
  constructor
  · intro hencloses
    have hlt : (k : Int) < (first :: earlier).length := by exact_mod_cast hencloses.before
    have hmark := mem_marks_of_lt hencloses.mem hencloses.line hlt
    obtain ⟨_, hstart⟩ := start_of_line (raw :: later) hmark (by rw [Mark.line?_head, hencloses.line])
    refine ⟨hencloses.mem, hencloses.line, List.mem_filter.mpr ⟨hmark, ?_⟩⟩
    refine (Mark.isOpen_concat_iff hlines hblank hstart hencloses.before).mpr ⟨?_, ?_, ?_⟩
    · simpa using hencloses.isContainer
    · simpa using hencloses.isOpen
    · simpa using hencloses.admits
  · rintro ⟨hmem, hline, hopen⟩
    obtain ⟨hmark, hopen⟩ := List.mem_filter.mp hopen
    obtain ⟨hlt, hstart⟩ := start_of_line (raw :: later) hmark (by rw [Mark.line?_head, hline])
    obtain ⟨hcontainer, hbetween, hadmits⟩ := (Mark.isOpen_concat_iff hlines hblank hstart hlt).mp hopen
    refine ⟨hmem, ?_, hline, hlt, ?_, ?_⟩
    · simpa using hcontainer
    · simpa using hbetween
    · simpa using hadmits

theorem draft_marks_sorted (first : Text) (body : List Text) :
    (draft first body).marks.Pairwise fun mark other =>
      ∀ line ∈ mark.line?, ∀ line' ∈ other.line?, line ≤ line' := by
  rw [Draft.marks_eq_map_head]
  exact List.pairwise_map.mpr (draft_added first body).sorted

/-- The containers that a line leaves open are deeper and deeper. -/
theorem columns_increasing (first : Text) {raw : Text} (earlier : List Text) (hblank : Text.trim raw ≠ []) :
    ((draft first earlier).marks.filter (Mark.isOpen (first :: earlier ++ [raw]))).Pairwise
      fun mark other => mark.column < other.column := by
  have hscoped := draft_scoped first earlier
  have hstays := hscoped.decreasing.sublist
    (List.dropWhile_suffix (Frame.isClosedBy (Text.indent raw) (Text.isItem raw))).sublist
  have hresolve := hscoped.resolve hblank
  rw [Frame.resolve] at hresolve
  rwa [hresolve, List.pairwise_reverse, List.pairwise_map] at hstays

/-- The innermost open container is the innermost container around the line. -/
theorem exists_innermost (first : Text) {raw : Text} (earlier later : List Text)
    (hblank : Text.trim raw ≠ []) :
    ∃ parent?, Innermost (Encloses (first :: (earlier ++ raw :: later))
        (draft first (earlier ++ raw :: later)).forest (first :: earlier).length) parent? ∧
      ((draft first earlier).closedBy raw).scopes.head? =
        parent?.map fun parent => parent.2.mark.head.frame := by
  have hsorted := (draft_marks_sorted first earlier).filter (Mark.isOpen (first :: earlier ++ [raw]))
  have hdeeper := columns_increasing first earlier hblank
  rw [Draft.scopes_closedBy, (draft_scoped first earlier).resolve hblank]
  -- marks are in the order of lines, so the last one that is open is the innermost container
  obtain hnil | ⟨outer, mark, hopen⟩ :=
    List.eq_nil_or_concat ((draft first earlier).marks.filter (Mark.isOpen (first :: earlier ++ [raw])))
  · rw [hnil]
    refine ⟨none, fun k container hencloses => ?_, rfl⟩
    have hmem := ((encloses_iff hblank).mp hencloses).2.2
    rw [hnil] at hmem
    cases hmem
  · rw [List.concat_eq_append] at hopen
    have hmark : mark ∈ (draft first earlier).marks.filter (Mark.isOpen (first :: earlier ++ [raw])) := by
      rw [hopen]
      simp
    have hstart := start_eq_indentAt (raw :: later) (List.mem_of_mem_filter hmark)
    obtain ⟨container, hcontainer, rfl⟩ := exists_of_mem_marks (raw :: later) (List.mem_of_mem_filter hmark)
    obtain ⟨k, _, hstart⟩ := hstart
    have hline : container.mark.line? = some (k : Int) := by
      rw [← Mark.line?_head, Mark.line?, hstart]
      rfl
    refine ⟨some (k, container), ⟨(encloses_iff hblank).mpr ⟨hcontainer, hline, hmark⟩, ?_⟩, ?_⟩
    case refine_2 =>
      rw [hopen, List.map_append, List.reverse_append]
      rfl
    intro k' other hother
    obtain ⟨hother, hline', hmark'⟩ := (encloses_iff hblank).mp hother
    obtain ⟨_, hstart'⟩ := start_of_line (raw :: later) (List.mem_of_mem_filter hmark')
      (by rw [Mark.line?_head, hline'])
    rw [hopen] at hsorted hdeeper hmark'
    obtain houter | hsame := List.mem_append.mp hmark'
    · left
      have hle : (k' : Int) ≤ k := (List.pairwise_append.mp hsorted).2.2 _ houter _ (List.mem_singleton.mpr rfl)
        k' (by simpa using hline') k (by simpa using hline)
      have hlt := (List.pairwise_append.mp hdeeper).2.2 _ houter _ (List.mem_singleton.mpr rfl)
      -- containers of one line would be at one indent
      by_contra hnot
      obtain rfl : k' = k := by omega
      simp [Mark.column, hstart, hstart'] at hlt
    · exact .inr (eq_of_head_mark hother hcontainer (List.mem_singleton.mp hsame))

/-- What the innermost open container and the container around the line have in common. -/
theorem top_eq {frames : List (Frame OpenNode)} {frame : Frame OpenNode} {parent? : Option (Nat × Node)}
    (htop : (frames.map Frame.head).head? = parent?.map fun parent => parent.2.mark.head.frame)
    (hframe : frames.head? = some frame) :
    ∃ k container, parent? = some (k, container) ∧ frame.item.node.mark.head = container.mark.head ∧
      frame.indent = container.mark.column ∧ frame.isList = container.content.isList ∧
      frame.item.content.isScript = container.content.isScript := by
  rw [List.head?_map, hframe] at htop
  obtain ⟨⟨k, container⟩, rfl, hsame⟩ := Option.map_eq_some_iff.mp htop.symm
  have hmark : frame.item.node.mark.head = container.mark.head := (congrArg Frame.item hsame).symm
  refine ⟨k, container, rfl, hmark, (congrArg Frame.indent hsame).symm, ?_, ?_⟩
  · rw [← Content.isList_head container.content]
    exact (congrArg Frame.isList hsame).symm
  · have hcontent : frame.item.content.head = container.content.head := congrArg Mark.content hmark
    rw [← Content.isScript_head, hcontent, Content.isScript_head]

section Line

variable {first raw : Text} {earlier later : List Text}

variable (first raw earlier later) in
theorem getD_line : (first :: (earlier ++ raw :: later)).getD (first :: earlier).length [] = raw := by
  simp [List.getD_eq_getElem?_getD]

theorem between_line (k : Nat) :
    between (first :: (earlier ++ raw :: later)) k (first :: earlier).length =
      (first :: earlier).drop (k + 1) := by
  rw [between, ← List.cons_append, List.take_left]

theorem between_line_succ {k : Nat} (hk : k < (first :: earlier).length) :
    between (first :: (earlier ++ raw :: later)) k ((first :: earlier).length + 1) =
      (first :: earlier).drop (k + 1) ++ [raw] := by
  have hsplit : first :: (earlier ++ raw :: later) = first :: earlier ++ [raw] ++ later := by simp
  have hlength : (first :: earlier).length + 1 = (first :: earlier ++ [raw]).length := by simp
  rw [between, hsplit, hlength, List.take_left, List.drop_append_of_le_length hk]

theorem start_of_encloses {k : Nat} {container : Node} (hblank : Text.trim raw ≠ [])
    (hencloses : Encloses (first :: (earlier ++ raw :: later)) (draft first (earlier ++ raw :: later)).forest
      (first :: earlier).length k container) :
    container.mark.start? = some ((k : Int), indentAt (first :: (earlier ++ raw :: later)) k) := by
  obtain ⟨_, hline, hmark⟩ := (encloses_iff hblank).mp hencloses
  exact (start_of_line (raw :: later) (List.mem_of_mem_filter hmark) (by rw [Mark.line?_head, hline])).2

/-- A line that goes into a script is found there. -/
theorem getElem?_body_of_encloses {k : Nat} {script : Node} (hblank : Text.trim raw ≠ [])
    (himport : isImport (Text.trim raw) = false)
    (hencloses : Encloses (first :: (earlier ++ raw :: later)) (draft first (earlier ++ raw :: later)).forest
      (first :: earlier).length k script)
    {signature : Text} {body : List Text} (hscript : script.content = .script signature body) :
    body[(scriptLines ((first :: earlier).drop (k + 1))).length]? = some
      (scriptLine ((scriptMargin? ((first :: earlier).drop (k + 1) ++ [raw])).getD 0) raw) := by
  have hbody : body = scriptBody (script.mark.block (first :: (earlier ++ raw :: later))) := by
    refine (draft_scripted first (earlier ++ raw :: later)).body script.mark ?_ signature body hscript
    rw [← Draft.places_forest, Node.map_mark_placesForest]
    exact List.mem_map_of_mem hencloses.mem
  have hopen := (List.mem_filter.mp ((encloses_iff hblank).mp hencloses).2.2).2
  rw [Mark.isOpen_head] at hopen
  have hk : k < (first :: earlier ++ [raw]).length := by
    have hbefore := hencloses.before
    rw [List.length_append]
    omega
  obtain ⟨rest, hblock⟩ := Mark.block_of_isOpen later (start_of_encloses hblank hencloses) hk hopen
  have hsplit : first :: (earlier ++ raw :: later) = first :: earlier ++ [raw] ++ later := by simp
  rw [hbody, hsplit, hblock, List.drop_append_of_le_length hencloses.before, List.append_assoc]
  exact getElem?_scriptBody hblank himport _ _

/-- No child of a node starts after the last one. -/
theorem line_le_of_last {first : Text} {body : List Text} {node : Node}
    (hnode : node ∈ Node.preorderForest (draft first body).forest) {items : List Node} {last : Node}
    (hchildren : node.children = items ++ [last]) {child : Node} (hchild : child ∈ node.children)
    {line line' : Int} (hline : child.mark.line? = some line) (hlast : last.mark.line? = some line') :
    line ≤ line' := by
  have hsorted := draft_marks_sorted first body
  rw [Draft.marks_eq_preorder, List.pairwise_map] at hsorted
  have hbelow := hsorted.sublist (Node.sublist_of_mem_preorderForest hnode)
  rw [hchildren] at hchild
  obtain ⟨content, span?, children⟩ := node
  obtain rfl : children = items ++ [last] := hchildren
  rw [Node.preorder, Node.preorderForest_append] at hbelow
  obtain hitem | hsame := List.mem_append.mp hchild
  · have hmem : child ∈ Node.preorderForest items :=
      Node.mem_preorderForest.mpr ⟨child, hitem, Node.mem_preorder_self child⟩
    have hmem' : last ∈ Node.preorderForest [last] :=
      Node.mem_preorderForest.mpr ⟨last, by simp, Node.mem_preorder_self last⟩
    exact (List.pairwise_append.mp (List.pairwise_cons.mp hbelow).2).2.2 child hmem last hmem'
      line hline line' hlast
  · obtain rfl := List.mem_singleton.mp hsame
    exact (Option.some.inj (hline.symm.trans hlast)).le

/-- A place of the finished forest is that of a child of the node with the mark above it. -/
theorem exists_child_of_place {first : Text} {body : List Text} {mark : Mark} {parent : Node}
    (hparent : parent ∈ Node.preorderForest (draft first body).forest)
    (hplace : ⟨some parent.mark.head, mark⟩ ∈ (draft first body).places.map Place.head) :
    ∃ child ∈ parent.children, child.mark.head = mark := by
  obtain ⟨root, _, heq⟩ | ⟨parent', hparent', child, hchild, heq⟩ := Draft.mem_places_head.mp hplace
  · cases congrArg Place.parent? heq
  · have hsame : parent.mark.head = parent'.mark.head := Option.some.inj (congrArg Place.parent? heq)
    obtain rfl := eq_of_head_mark hparent hparent' hsame
    exact ⟨child, hchild, (congrArg Place.mark heq).symm⟩

/-- The last item of the innermost open list is the last item before the line. -/
theorem exists_lastItem {frame : Frame OpenNode} {frames : List (Frame OpenNode)}
    (hframes : ((draft first earlier).closedBy raw).frames = frame :: frames)
    {items : List Node} {last : Node} (hchildren : frame.item.children = items ++ [last])
    (hlast : last.content.isItem) {list : Node}
    (hlist : list ∈ Node.preorderForest (draft first (earlier ++ later)).forest)
    (hsame : frame.item.node.mark.head = list.mark.head) :
    ∃ item, LastItem list (first :: earlier).length item ∧ item.mark.head = last.mark.head := by
  have htop : frame.item.node ∈ Node.preorderForest (draft first earlier).forest := by
    have hmem := Draft.top_mem_forest hframes
    rwa [Draft.closedBy, Draft.forest_close] at hmem
  have hmem : last ∈ frame.item.node.children := by simp [hchildren]
  -- the item is below the list in the end as well
  have hplace := (draft_grows first earlier later).mem_places
    (Draft.mem_places_head.mpr (.inr ⟨_, htop, last, hmem, rfl⟩))
  rw [hsame] at hplace
  obtain ⟨item, hitem, hmark⟩ := exists_child_of_place hlist hplace
  obtain ⟨k, hk, hstart⟩ := start_eq_indentAt later (head_mem_marks (Node.child_mem_preorderForest htop hmem))
  have hline : last.mark.line? = some (k : Int) := by
    rw [← Mark.line?_head, Mark.line?, hstart]
    rfl
  refine ⟨item, ⟨hitem, ?_, k, ?_, by exact_mod_cast hk, ?_⟩, hmark⟩
  · have hcontent : item.content.head = last.content.head := congrArg Mark.content hmark
    rw [← Content.isItem_head, hcontent, Content.isItem_head, hlast]
  · rw [← Mark.line?_head, hmark, Mark.line?_head, hline]
    rfl
  · -- another item on an earlier line was there when the line was read, and the last one after it
    intro other hother line' hline' hlt
    have hplace' := (draft_grows first earlier later).mem_places_of_lt
      (Draft.mem_places_head.mpr (.inr ⟨_, hlist, other, hother, rfl⟩)) hline' hlt
    rw [← hsame] at hplace'
    obtain ⟨child, hchild, hmark'⟩ := exists_child_of_place htop hplace'
    refine line_le_of_last htop hchildren hchild ?_ hline
    rw [← Mark.line?_head, hmark', Mark.line?_head]
    exact hline'

/-- A node that a line gives is found below the container around the line. -/
theorem exists_sibling {parent? : Option (Nat × Node)}
    (hinnermost : Innermost (Encloses (first :: (earlier ++ raw :: later))
      (draft first (earlier ++ raw :: later)).forest (first :: earlier).length) parent?)
    (htop : ((draft first earlier).closedBy raw).scopes.head? =
      parent?.map fun parent => parent.2.mark.head.frame)
    {node : Node} {mark : Mark}
    (hplace : ⟨(Draft.holder? ((draft first earlier).closedBy raw).frames node).map Mark.head, mark⟩ ∈
      (draft first (earlier ++ raw :: later)).places.map Place.head) :
    ∃ siblings, Siblings (draft first (earlier ++ raw :: later)).forest (first :: earlier).length
        node.content parent? siblings ∧ ∃ child ∈ siblings, child.mark.head = mark := by
  cases hframes : ((draft first earlier).closedBy raw).frames with
  | nil =>
    rw [Draft.scopes, hframes] at htop
    obtain rfl : parent? = none := Option.map_eq_none_iff.mp htop.symm
    rw [hframes] at hplace
    obtain ⟨root, hroot, heq⟩ | ⟨_, _, _, _, heq⟩ := Draft.mem_places_head.mp hplace
    · exact ⟨_, .root, root, hroot, (congrArg Place.mark heq).symm⟩
    · cases congrArg Place.parent? heq
  | cons frame frames =>
    have hshaped : frame.Shaped :=
      ((draft_shaped first earlier).close _ _).frames frame (hframes ▸ List.mem_cons_self)
    obtain ⟨k, container, rfl, hsame, _, hlist, _⟩ := top_eq htop (by rw [hframes]; rfl)
    have hmem := hinnermost.1.mem
    have hpasses := hshaped.passesOn_eq node
    rw [← hshaped.isList, hlist] at hpasses
    rw [hframes] at hplace
    cases hpass : frame.item.passesOn node with
    | false =>
      rw [Draft.holder?, List.head?_cons, Option.map_some, Option.map_some,
        OpenNode.holder_of_keeps hpass, hsame] at hplace
      refine ⟨_, .inside fun hisList => ?_, exists_child_of_place hmem hplace⟩
      simpa [hpass, hisList] using hpasses.symm
    | true =>
      rw [hpass, eq_comm, Bool.and_eq_true, Bool.not_eq_true'] at hpasses
      obtain ⟨items, last, hchildren, hlast⟩ := hshaped.exists_last (by rw [← hshaped.isList, hlist, hpasses.1])
      obtain ⟨item, hitem, hmark⟩ := exists_lastItem hframes hchildren
        (Content.role?_eq_item_iff.mp hlast) hmem hsame
      rw [Draft.holder?, List.head?_cons, Option.map_some, Option.map_some,
        OpenNode.holder_of_passesOn hpass hchildren, ← hmark] at hplace
      exact ⟨_, .item hpasses.1 hpasses.2 hitem,
        exists_child_of_place (Node.child_mem_preorderForest hmem hitem.mem) hplace⟩

/-- A line is read as one below the container around it. -/
theorem sourceLine_eq {parent? : Option (Nat × Node)} (hblank : Text.trim raw ≠ [])
    (hinnermost : Innermost (Encloses (first :: (earlier ++ raw :: later))
      (draft first (earlier ++ raw :: later)).forest (first :: earlier).length) parent?)
    (htop : ((draft first earlier).closedBy raw).scopes.head? =
      parent?.map fun parent => parent.2.mark.head.frame) :
    ((draft first earlier).closedBy raw).sourceLine (first :: earlier).length raw =
      lineBelow (first :: (earlier ++ raw :: later)) (first :: earlier).length parent? := by
  have hraw := getD_line first raw earlier later
  rw [lineBelow, Draft.sourceLine, hraw, indentAt, hraw]
  congr 2
  cases hframes : ((draft first earlier).closedBy raw).frames with
  | nil =>
    rw [Draft.scopes, hframes] at htop
    obtain rfl : parent? = none := Option.map_eq_none_iff.mp htop.symm
    rfl
  | cons frame frames =>
    obtain ⟨k, container, rfl, _, hindent, hlist, _⟩ := top_eq htop (by rw [hframes]; rfl)
    have hstart := start_of_encloses hblank hinnermost.1
    have hcolumn : container.mark.column = indentAt (first :: (earlier ++ raw :: later)) k := by
      simp [Mark.column, hstart]
    rw [Frame.inList, hindent, hlist, hcolumn, Option.any_some, Bool.and_comm]

/-- Outside scripts, the container around a line is no script. -/
theorem isScript_of_top {parent? : Option (Nat × Node)}
    (htop : ((draft first earlier).closedBy raw).scopes.head? =
      parent?.map fun parent => parent.2.mark.head.frame) :
    ((draft first earlier).closedBy raw).inScript = parent?.any fun parent => parent.2.content.isScript := by
  rw [Draft.inScript]
  cases hframe : ((draft first earlier).closedBy raw).frames.head? with
  | none =>
    rw [Draft.scopes, List.head?_map, hframe] at htop
    obtain rfl : parent? = none := Option.map_eq_none_iff.mp htop.symm
    rfl
  | some frame =>
    obtain ⟨k, container, rfl, _, _, _, hscript⟩ := top_eq htop hframe
    exact hscript

/-- Every line that is not blank is placed below the innermost container around it. -/
theorem exists_placed {document : Document}
    (hnodes : document.nodes = (draft first (earlier ++ raw :: later)).forest)
    (himports : document.imports = (draft first (earlier ++ raw :: later)).imports)
    (hblank : Text.trim raw ≠ []) :
    ∃ parent?, Innermost (Encloses (first :: (earlier ++ raw :: later)) document.nodes
        (first :: earlier).length) parent? ∧
      Placed (first :: (earlier ++ raw :: later)) document (first :: earlier).length parent? := by
  obtain ⟨parent?, hinnermost, htop⟩ := exists_innermost first earlier later hblank
  refine ⟨parent?, by rwa [hnodes], ?_⟩
  have hraw := getD_line first raw earlier later
  have hscripts := isScript_of_top htop
  have hsource := sourceLine_eq hblank hinnermost htop
  have hgrows := draft_grows first (earlier ++ [raw]) later
  rw [draft_concat, List.append_assoc, List.singleton_append] at hgrows
  have hstep := Draft.step_cases (draft first earlier) (first :: earlier).length raw
  generalize (draft first earlier).step (first :: earlier).length raw = next at hstep hgrows
  cases hstep with
  | blank hnil => exact absurd hnil hblank
  | hoisted _ hscript himport =>
    rw [hscripts] at hscript
    obtain _ | ⟨k, script⟩ := parent?
    · cases hscript
    refine .hoisted hscript (by rwa [hraw]) ?_
    rw [hraw, himports]
    exact hgrows.imports.subset (Draft.mem_imports_hoist _ _)
  | captured _ himport hframes hcontent =>
    have hscript : ((draft first earlier).closedBy raw).inScript := by
      simp [Draft.inScript, hframes, hcontent, Content.isScript]
    rw [hscripts] at hscript
    obtain _ | ⟨k, script⟩ := parent?
    · cases hscript
    obtain ⟨signature, body, hbody⟩ := Content.exists_of_isScript hscript
    refine .captured hbody (by rwa [hraw]) ?_
    rw [between_line, between_line_succ hinnermost.1.before, hraw]
    exact getElem?_body_of_encloses hblank himport hinnermost.1 hbody
  | dropped _ hscript hread =>
    rw [hsource] at hread
    refine .dropped (fun parent hparent => ?_) hread
    simpa [Option.mem_def.mp hparent, hscript] using hscripts.symm
  | @attached _ hscript node faults log hread hfresh hline =>
    rw [hsource] at hread
    have hadded : ⟨Draft.holder? ((draft first earlier).closedBy raw).frames
        (node.place (lineSpan (first :: earlier).length raw)),
        (node.place (lineSpan (first :: earlier).length raw)).mark⟩ ∈
        ((draft first earlier).places ++ (node.place (lineSpan (first :: earlier).length raw)).places
          (Draft.holder? ((draft first earlier).closedBy raw).frames
            (node.place (lineSpan (first :: earlier).length raw)))) := by
      rw [Node.places_eq]
      simp
    rw [← Draft.places_attached _ faults log] at hadded
    -- later lines leave the new place where it is, below the same node
    obtain ⟨siblings, hsiblings, child, hchild, hmark⟩ := exists_sibling hinnermost htop
      (hgrows.mem_places (List.mem_map_of_mem hadded))
    rw [Node.content_place, ← hnodes] at hsiblings
    refine .attached (fun parent hparent => ?_) hread hsiblings hchild ?_ (hfresh.content_of_mark hmark)
    · simpa [Option.mem_def.mp hparent, hscript] using hscripts.symm
    · rw [← Mark.line?_head, hmark, Mark.line?, Node.start?_head_mark (Node.span?_place _ node)]
      rfl

end Line

theorem exists_split {body : List Text} {l : Nat} (hpos : 0 < l) {first : Text}
    (hl : l < (first :: body).length) :
    ∃ earlier raw later, body = earlier ++ raw :: later ∧ l = (first :: earlier).length := by
  obtain ⟨n, rfl⟩ : ∃ n, l = n + 1 := ⟨l - 1, by omega⟩
  have hn : n < body.length := by simpa using hl
  refine ⟨body.take n, body[n], body.drop (n + 1), ?_, ?_⟩
  · rw [List.getElem_cons_drop, List.take_append_drop]
  · simp [Nat.min_eq_left hn.le]

theorem indents_increasing (first : Text) (body : List Text) :
    ((draft first body).frames.map Frame.indent).reverse.Pairwise (· < ·) := by
  have hdecreasing := (draft_scoped first body).decreasing
  rw [Draft.scopes, List.pairwise_map] at hdecreasing
  rw [List.pairwise_reverse, List.pairwise_map]
  exact hdecreasing

/-- Nesting by indent is block scoping: each line that is not blank is placed below the container that
was opened last among those around it, and these are known from the indents of the lines alone. After
any number of lines, the indents of the open containers increase strictly from the outside in. -/
theorem placed_in_innermost {t first : Text} {body : List Text} (hlines : Text.lines t = first :: body)
    (hfirst : Text.trim first ≠ []) :
    (∀ l, 0 < l → l < (first :: body).length → Text.trim ((first :: body).getD l []) ≠ [] →
      ∃ parent?, Innermost (Encloses (first :: body) (ofText t).nodes l) parent? ∧
        Placed (first :: body) (ofText t) l parent?) ∧
    ∀ n, ((draft first (body.take n)).frames.map Frame.indent).reverse.Pairwise (· < ·) := by
  refine ⟨fun l hpos hl hblank => ?_, fun n => indents_increasing first (body.take n)⟩
  have hdocument := ofText_of_lines hlines hfirst
  obtain ⟨earlier, raw, later, rfl, rfl⟩ := exists_split hpos hl
  rw [getD_line] at hblank
  exact exists_placed (congrArg nodes hdocument) (congrArg imports hdocument) hblank

theorem placed_in_innermost_item :
    ∃ parent?, Innermost (Encloses ["Page", "- a", "  b"] (ofText "Page\n- a\n  b").nodes 2) parent? ∧
      Placed ["Page", "- a", "  b"] (ofText "Page\n- a\n  b") 2 parent? :=
  (placed_in_innermost rfl (by decide)).1 2 (by decide) (by decide) (by decide)

end Document

end ViewMarkup
