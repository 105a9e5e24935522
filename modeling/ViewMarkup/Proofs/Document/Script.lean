import ViewMarkup.Proofs.Document.Scope

namespace ViewMarkup

/-- The lines of a block that go into a script. -/
def scriptLines (block : List Text) : List Text :=
  block.filter fun raw => !decide (Text.trim raw = []) && !isImport (Text.trim raw)

/-- The left margin of a script: the indent of the first line that goes into it. -/
def scriptMargin? (block : List Text) : Option Nat :=
  (scriptLines block).head?.map Text.indent

/-- The body of a script with the given block. -/
def scriptBody (block : List Text) : List Text :=
  (scriptLines block).map (scriptLine ((scriptMargin? block).getD 0))

theorem scriptLines_concat_of_skipped {raw : Text} (hskip : Text.trim raw = [] ∨ isImport (Text.trim raw))
    (block : List Text) : scriptLines (block ++ [raw]) = scriptLines block := by
  rw [scriptLines, List.filter_append, List.filter_cons_of_neg, List.filter_nil, List.append_nil, scriptLines]
  obtain hblank | himport := hskip
  · simp [hblank]
  · simp [himport]

theorem scriptBody_concat_of_skipped {raw : Text} (hskip : Text.trim raw = [] ∨ isImport (Text.trim raw))
    (block : List Text) : scriptBody (block ++ [raw]) = scriptBody block ∧
      scriptMargin? (block ++ [raw]) = scriptMargin? block := by
  simp only [scriptBody, scriptMargin?, scriptLines_concat_of_skipped hskip, and_self]

/-- A line that goes into a script is cut at the margin, which it sets if it is the first one. -/
theorem scriptBody_concat {raw : Text} (hblank : Text.trim raw ≠ [])
    (himport : isImport (Text.trim raw) = false) (block : List Text) :
    scriptBody (block ++ [raw]) =
        scriptBody block ++ [scriptLine ((scriptMargin? block).getD (Text.indent raw)) raw] ∧
      scriptMargin? (block ++ [raw]) = some ((scriptMargin? block).getD (Text.indent raw)) := by
  have hlines : scriptLines (block ++ [raw]) = scriptLines block ++ [raw] := by
    rw [scriptLines, List.filter_append, List.filter_cons_of_pos (by simp [hblank, himport])]
    rfl
  simp only [scriptBody, scriptMargin?, hlines]
  cases scriptLines block with
  | nil => simp
  | cons line lines => simp

/-- The line of a script that a line of its block becomes stands where the earlier ones end. -/
theorem getElem?_scriptBody {raw : Text} (hblank : Text.trim raw ≠ [])
    (himport : isImport (Text.trim raw) = false) (before rest : List Text) :
    (scriptBody (before ++ raw :: rest))[(scriptLines before).length]? =
      some (scriptLine ((scriptMargin? (before ++ [raw])).getD 0) raw) := by
  have hlines : ∀ tail, scriptLines (before ++ raw :: tail) = scriptLines before ++ raw :: scriptLines tail := by
    intro tail
    rw [scriptLines, List.filter_append, List.filter_cons_of_pos (by simp [hblank, himport])]
    rfl
  have hmargin : scriptMargin? (before ++ raw :: rest) = scriptMargin? (before ++ [raw]) := by
    rw [scriptMargin?, scriptMargin?, hlines, hlines]
    cases scriptLines before <;> rfl
  rw [scriptBody, hmargin, hlines, List.getElem?_map, List.getElem?_append_right (by omega)]
  simp

/-- The block of a container: the lines below it up to the first that closes it. -/
def Mark.block (lines : List Text) (mark : Mark) : List Text :=
  (mark.below lines).takeWhile (mark.content.outlasts mark.column)

theorem Mark.block_concat {lines : List Text} {mark : Mark} {k : Nat} {column : Int} (raw : Text)
    (hcontainer : mark.content.isContainer) (hstart : mark.start? = some ((k : Int), column))
    (hk : k < lines.length) :
    mark.block (lines ++ [raw]) =
      if mark.isOpen (lines ++ [raw]) then mark.block lines ++ [raw] else mark.block lines := by
  have hbelow : mark.below (lines ++ [raw]) = mark.below lines ++ [raw] := by
    simp only [below, hstart, Option.elim_some, Int.toNat_natCast]
    rw [List.drop_append_of_le_length hk]
  simp only [block, isOpen, hbelow, hcontainer, Bool.true_and, List.all_append]
  cases hall : (mark.below lines).all (mark.content.outlasts mark.column) with
  | true =>
    rw [List.takeWhile_append_of_pos (List.all_eq_true.mp hall),
      List.takeWhile_eq_self_iff.mpr (List.all_eq_true.mp hall)]
    cases hlast : mark.content.outlasts mark.column raw <;> simp [hlast]
  | false =>
    have hshort : ((mark.below lines).takeWhile (mark.content.outlasts mark.column)).length ≠
        (mark.below lines).length := by
      intro hlength
      have hself := (List.takeWhile_prefix (mark.content.outlasts mark.column)
        (l := mark.below lines)).eq_of_length hlength
      have hall' := List.takeWhile_eq_self_iff.mp hself
      simp [List.all_eq_true.mpr hall'] at hall
    rw [List.takeWhile_append, if_neg hshort]
    simp

/-- The block of a container that is open after a line begins with the lines up to that line. -/
theorem Mark.block_of_isOpen {earlier : List Text} (later : List Text) {mark : Mark} {k : Nat}
    {column : Int} (hstart : mark.start? = some ((k : Int), column)) (hk : k < earlier.length)
    (hopen : mark.isOpen earlier) :
    ∃ rest, mark.block (earlier ++ later) = earlier.drop (k + 1) ++ rest := by
  have hbelow : mark.below (earlier ++ later) = earlier.drop (k + 1) ++ later := by
    simp only [below, hstart, Option.elim_some, Int.toNat_natCast]
    rw [List.drop_append_of_le_length hk]
  have hall : ∀ raw ∈ earlier.drop (k + 1), mark.content.outlasts mark.column raw := by
    simp only [isOpen, below, hstart, Option.elim_some, Int.toNat_natCast, Bool.and_eq_true,
      List.all_eq_true] at hopen
    exact hopen.2
  rw [block, hbelow, List.takeWhile_append_of_pos hall]
  exact ⟨_, rfl⟩

@[simp] theorem Mark.block_head (lines : List Text) (mark : Mark) :
    mark.head.block lines = mark.block lines := by
  simp [block, head, below, column]

/-- What a frame knows of a script: its mark and its left margin. -/
def Frame.slate (frame : Frame OpenNode) : Mark × Option Nat :=
  (frame.item.node.mark, frame.item.margin?)

theorem Frame.slate_stable : Frame.Stable Frame.slate := by
  refine ⟨fun _ _ => rfl, fun frame node line column => ?_, fun _ _ _ => rfl⟩
  have hmargin : (frame.item.touch node line column).margin? = frame.item.margin? := by
    unfold OpenNode.touch
    split <;> rfl
  rw [slate, OpenNode.touch_mark, hmargin, slate]

namespace Draft

/-- An open script is the innermost open container. -/
theorem Scoped.top_of_isOpen {lines : List Text} {draft : Draft} (hscoped : Scoped lines draft)
    (hshaped : draft.Shaped) {raw : Text} (hblank : Text.trim raw ≠ []) {mark : Mark}
    (hmark : mark ∈ draft.marks) (hscript : mark.content.isScript)
    (hopen : mark.isOpen (lines ++ [raw])) :
    ∃ frame frames, (draft.closedBy raw).frames = frame :: frames ∧ frame.item.node.mark.head = mark := by
  have houter : ∀ frame ∈ (draft.closedBy raw).frames.tail, frame.item.content.isScript = false :=
    (hshaped.close _ _).outer
  have hmem : mark.frame ∈ (draft.closedBy raw).scopes := by
    rw [scopes_closedBy, hscoped.resolve hblank]
    exact List.mem_reverse.mpr (List.mem_map_of_mem (List.mem_filter.mpr ⟨hmark, hopen⟩))
  obtain ⟨frame, hframe, hhead⟩ := List.mem_map.mp hmem
  have hsame : frame.item.node.mark.head = mark := congrArg Frame.item hhead
  cases hframes : (draft.closedBy raw).frames with
  | nil => simp [hframes] at hframe
  | cons top rest =>
    rw [hframes] at hframe houter
    obtain rfl | hrest := List.mem_cons.mp hframe
    · exact ⟨frame, rest, rfl, hsame⟩
    · have hnot := houter frame hrest
      rw [← hsame] at hscript
      simp [Mark.head, Node.mark, hnot] at hscript

/-- Outside scripts, no script is open. -/
theorem Scoped.not_isOpen_script {lines : List Text} {draft : Draft} (hscoped : Scoped lines draft)
    (hshaped : draft.Shaped) {raw : Text} (hblank : Text.trim raw ≠ [])
    (hnot : (draft.closedBy raw).inScript = false) {mark : Mark} (hmark : mark ∈ draft.marks)
    (hscript : mark.content.isScript) : mark.isOpen (lines ++ [raw]) = false := by
  cases hopen : mark.isOpen (lines ++ [raw]) with
  | false => rfl
  | true =>
    obtain ⟨frame, frames, hframes, rfl⟩ := hscoped.top_of_isOpen hshaped hblank hmark hscript hopen
    simp [Mark.head, Node.mark] at hscript
    simp [inScript, hframes, hscript] at hnot

/-- Every script holds the lines of its block, and an open one knows its margin. -/
structure Scripted (lines : List Text) (draft : Draft) : Prop where
  body : ∀ mark ∈ draft.places.map Place.mark, ∀ signature body,
    mark.content = .script signature body → body = scriptBody (mark.block lines)
  margin : ∀ slate ∈ draft.frames.map Frame.slate, slate.1.content.isScript →
    slate.2 = scriptMargin? (slate.1.block lines)

theorem empty_scripted (diagnostics : List Diagnostic) (first : Text) :
    Scripted [first] { empty with diagnostics } :=
  ⟨by simp [places, empty, openPlaces, Node.placesForest], by simp [empty]⟩

theorem mem_marks {draft : Draft} {mark : Mark} (hmark : mark ∈ draft.places.map Place.mark) :
    mark.head ∈ draft.marks := by
  obtain ⟨place, hplace, rfl⟩ := List.mem_map.mp hmark
  exact List.mem_map_of_mem (f := fun place : Place => place.mark.head) hplace

theorem Scoped.mem_marks_of_slate {lines : List Text} {draft : Draft} (hscoped : Scoped lines draft)
    {slate : Mark × Option Nat} (hslate : slate ∈ draft.frames.map Frame.slate) :
    slate.1.head ∈ draft.marks := by
  obtain ⟨frame, hframe, rfl⟩ := List.mem_map.mp hslate
  have hscope : frame.head ∈ draft.scopes := List.mem_map_of_mem hframe
  rw [hscoped.scopes, List.mem_reverse] at hscope
  obtain ⟨mark, hmark, hsame⟩ := List.mem_map.mp hscope
  have hitem : mark = frame.item.node.mark.head := congrArg Frame.item hsame
  rw [hitem] at hmark
  exact List.mem_of_mem_filter hmark

/-- A line that does not go into a script leaves its body and its margin as they are. -/
theorem Scoped.scriptBody_concat {lines : List Text} {draft : Draft} (hscoped : Scoped lines draft)
    {mark : Mark} (hmark : mark.head ∈ draft.marks) (hscript : mark.content.isScript) {raw : Text}
    (hquiet : (Text.trim raw = [] ∨ isImport (Text.trim raw)) ∨ mark.isOpen (lines ++ [raw]) = false) :
    scriptBody (mark.block (lines ++ [raw])) = scriptBody (mark.block lines) ∧
      scriptMargin? (mark.block (lines ++ [raw])) = scriptMargin? (mark.block lines) := by
  obtain ⟨k, opening, hopening, hstart⟩ := hscoped.start _ hmark
  have hcontainer : mark.content.isContainer := by
    cases hcontent : mark.content with
    | script => rfl
    | _ => simp [hcontent, Content.isScript] at hscript
  rw [Mark.block_concat raw hcontainer hstart (List.getElem?_eq_some_iff.mp hopening).1]
  split
  · rename_i hopen
    obtain hskip | hclosed := hquiet
    · exact scriptBody_concat_of_skipped hskip _
    · simp [hopen] at hclosed
  · exact ⟨rfl, rfl⟩

/-- A line that goes into no script: it may add marks and open them, but no mark that is there before
it changes. -/
theorem Scripted.concat {lines : List Text} {draft next : Draft} (hscripted : Scripted lines draft)
    (hscoped : Scoped lines draft) {raw : Text} (added : List Mark)
    (hquiet : ∀ mark ∈ draft.marks, mark.content.isScript →
      (Text.trim raw = [] ∨ isImport (Text.trim raw)) ∨ mark.isOpen (lines ++ [raw]) = false)
    (hplaces : next.places.map Place.mark = draft.places.map Place.mark ++ added)
    (hadded : ∀ mark ∈ added, mark.line? = some (lines.length : Int) ∧ mark.content.head = mark.content)
    (hslates : ∀ slate ∈ next.frames.map Frame.slate,
      slate ∈ draft.frames.map Frame.slate ∨ slate.1 ∈ added ∧ slate.2 = none) :
    Scripted (lines ++ [raw]) next := by
  have hquiet' : ∀ mark : Mark, mark.head ∈ draft.marks → mark.content.isScript →
      (Text.trim raw = [] ∨ isImport (Text.trim raw)) ∨ mark.isOpen (lines ++ [raw]) = false := by
    intro mark hmark hscript
    have hhead := hquiet mark.head hmark (by simpa [Mark.head] using hscript)
    rwa [Mark.isOpen_head] at hhead
  -- nothing follows a mark that the line itself adds
  have hblock : ∀ mark ∈ added, mark.block (lines ++ [raw]) = [] := by
    intro mark hmark
    obtain ⟨⟨line, column⟩, hstart, rfl⟩ := Option.map_eq_some_iff.mp (hadded mark hmark).1
    simp [Mark.block, Mark.below, hstart]
  constructor
  · intro mark hmark signature body hcontent
    rw [hplaces] at hmark
    obtain hold | hnew := List.mem_append.mp hmark
    · have hscript : mark.content.isScript := by simp [hcontent, Content.isScript]
      have hhead := mem_marks hold
      rw [(hscoped.scriptBody_concat hhead hscript (hquiet' mark hhead hscript)).1]
      exact hscripted.body mark hold signature body hcontent
    · have hhead := (hadded mark hnew).2
      rw [hcontent] at hhead
      rw [hblock mark hnew]
      exact (Content.script.inj hhead).2.symm
  · intro slate hslate hscript
    obtain hold | ⟨hnew, hnone⟩ := hslates slate hslate
    · have hhead := hscoped.mem_marks_of_slate hold
      rw [(hscoped.scriptBody_concat hhead hscript (hquiet' slate.1 hhead hscript)).2]
      exact hscripted.margin slate hold hscript
    · rw [hblock slate.1 hnew, hnone]
      rfl

theorem mem_slates_of_closedBy {draft : Draft} {raw : Text} {slate : Mark × Option Nat}
    (hslate : slate ∈ (draft.closedBy raw).frames.map Frame.slate) : slate ∈ draft.frames.map Frame.slate := by
  rw [map_frames_closedBy Frame.slate_stable] at hslate
  exact ((List.dropWhile_suffix _).map _).subset hslate

/-- A container that a line leaves open is open after it. -/
theorem Scoped.isOpen_of_mem {lines : List Text} {draft : Draft} (hscoped : Scoped lines draft) {raw : Text}
    (hblank : Text.trim raw ≠ []) {frame : Frame OpenNode} (hframe : frame ∈ (draft.closedBy raw).frames) :
    frame.item.node.mark.isOpen (lines ++ [raw]) := by
  have hscope : frame.head ∈ (draft.closedBy raw).scopes := List.mem_map_of_mem hframe
  rw [scopes_closedBy, hscoped.resolve hblank, List.mem_reverse] at hscope
  obtain ⟨mark, hmark, hsame⟩ := List.mem_map.mp hscope
  have hitem : mark = frame.item.node.mark.head := congrArg Frame.item hsame
  rw [← Mark.isOpen_head, ← hitem]
  exact (List.mem_filter.mp hmark).2

/-- The block of a container goes on with a line that leaves the container open. -/
theorem Scoped.block_concat_of_mem {lines : List Text} {draft : Draft} (hscoped : Scoped lines draft)
    (hshaped : draft.Shaped) {raw : Text} (hblank : Text.trim raw ≠ []) {frame : Frame OpenNode}
    (hframe : frame ∈ (draft.closedBy raw).frames) :
    frame.item.node.mark.block (lines ++ [raw]) = frame.item.node.mark.block lines ++ [raw] := by
  have hslate := mem_slates_of_closedBy (List.mem_map_of_mem (f := Frame.slate) hframe)
  obtain ⟨k, opening, hopening, hstart⟩ := hscoped.start _ (hscoped.mem_marks_of_slate hslate)
  have hstart' : frame.item.node.mark.start? = some ((k : Int), (Text.indent opening : Int)) := hstart
  have hcontainer : frame.item.node.mark.content.isContainer :=
    ((hshaped.close _ _).frames frame hframe).isContainer
  rw [Mark.block_concat raw hcontainer hstart' (List.getElem?_eq_some_iff.mp hopening).1,
    if_pos (hscoped.isOpen_of_mem hblank hframe)]

/-- The scripts before an open one are closed. -/
theorem Scoped.not_isOpen_before {lines : List Text} {draft : Draft} (hscoped : Scoped lines draft)
    (hshaped : draft.Shaped) (hnodup : draft.marks.Nodup) {raw : Text} (hblank : Text.trim raw ≠ [])
    {frame : Frame OpenNode} {frames : List (Frame OpenNode)} {before : List Place} {parent? : Option Mark}
    (hframes : (draft.closedBy raw).frames = frame :: frames)
    (hplaces : draft.places = before ++ [⟨parent?, frame.item.node.mark⟩])
    {mark : Mark} (hmark : mark ∈ before.map Place.mark) (hscript : mark.content.isScript) :
    mark.isOpen (lines ++ [raw]) = false := by
  by_contra hopen
  have hin : mark.head ∈ draft.marks := mem_marks (by simp_all)
  obtain ⟨top, rest, htop, hsame⟩ := hscoped.top_of_isOpen hshaped hblank hin
    (by simpa [Mark.head] using hscript) (by simpa using hopen)
  obtain ⟨rfl, -⟩ := List.cons.inj (hframes.symm.trans htop)
  rw [marks, hplaces, List.map_append, List.nodup_append] at hnodup
  obtain ⟨place, hplace, rfl⟩ := List.mem_map.mp hmark
  exact hnodup.2.2 place.mark.head (List.mem_map_of_mem (f := fun place : Place => place.mark.head) hplace)
    frame.item.node.mark.head (by simp) hsame.symm

/-- A line that goes into a script is one more line of its block. -/
theorem Scripted.captured {lines : List Text} {draft : Draft} (hscripted : Scripted lines draft)
    (hscoped : Scoped lines draft) (hshaped : draft.Shaped) (hnodup : draft.marks.Nodup) {raw : Text}
    (hblank : Text.trim raw ≠ []) (himport : isImport (Text.trim raw) = false)
    {frame : Frame OpenNode} {frames : List (Frame OpenNode)} {signature : Text} {body : List Text}
    (hframes : (draft.closedBy raw).frames = frame :: frames)
    (hcontent : frame.item.content = .script signature body) :
    Scripted (lines ++ [raw]) { draft.closedBy raw with
      frames := { frame with item := frame.item.withLine signature body raw } :: frames } := by
  have hclosed : (draft.closedBy raw).Shaped := hshaped.close _ _
  have hscript : frame.item.node.mark.content.isScript := by
    simp [Node.mark, hcontent, Content.isScript]
  have hmem : frame ∈ (draft.closedBy raw).frames := by simp [hframes]
  have hslate : frame.slate ∈ draft.frames.map Frame.slate := mem_slates_of_closedBy (List.mem_map_of_mem hmem)
  obtain ⟨before, parent?, hold, hnew⟩ := places_withLine hclosed hframes hcontent raw
  rw [places_closedBy] at hold
  -- the script as it was before the line
  have hbody : body = scriptBody (frame.item.node.mark.block lines) :=
    hscripted.body _ (by simp [hold]) signature body hcontent
  have hmargin : frame.item.margin? = scriptMargin? (frame.item.node.mark.block lines) :=
    hscripted.margin frame.slate hslate hscript
  -- the script is open, so its block goes on
  have hblock : (frame.item.withLine signature body raw).node.mark.block (lines ++ [raw]) =
      frame.item.node.mark.block lines ++ [raw] := by
    rw [← hscoped.block_concat_of_mem hshaped hblank hmem, ← Mark.block_head,
      OpenNode.head_mark_withLine hcontent, Mark.block_head]
  obtain ⟨hbody', hmargin'⟩ := scriptBody_concat hblank himport (frame.item.node.mark.block lines)
  constructor
  · intro mark hmark other lines' hother
    rw [hnew, List.map_append, List.mem_append] at hmark
    obtain hearlier | hlast := hmark
    · have hin : mark ∈ draft.places.map Place.mark := by
        rw [hold, List.map_append]
        exact List.mem_append_left _ hearlier
      have hmarkScript : mark.content.isScript := by simp [hother, Content.isScript]
      have hshut := hscoped.not_isOpen_before hshaped hnodup hblank hframes hold hearlier hmarkScript
      rw [(hscoped.scriptBody_concat (mem_marks hin) hmarkScript (.inr hshut)).1]
      exact hscripted.body mark hin other lines' hother
    · obtain rfl : mark = (frame.item.withLine signature body raw).node.mark := by simpa using hlast
      have hlines : body ++ [scriptLine (frame.item.margin?.getD (Text.indent raw)) raw] = lines' :=
        (Content.script.inj hother).2
      rw [hblock, hbody', ← hlines, hmargin, ← hbody]
  · intro slate hmem hslateScript
    obtain rfl | hrest := List.mem_cons.mp hmem
    · change some (frame.item.margin?.getD (Text.indent raw)) = scriptMargin? _
      rw [show (Frame.slate { frame with item := frame.item.withLine signature body raw }).1.block
        (lines ++ [raw]) = _ from hblock, hmargin', hmargin]
    · obtain ⟨outer, houter, rfl⟩ := List.mem_map.mp hrest
      have hnot := hclosed.outer outer (by simpa [hframes] using houter)
      simp [Frame.slate, Node.mark, hnot] at hslateScript

theorem Scripted.extendTo {lines : List Text} {draft : Draft} (hscripted : Scripted lines draft)
    (line column : Int) : Scripted lines (draft.extendTo line column) := by
  refine ⟨?_, ?_⟩
  · rw [places_extendTo]
    exact hscripted.body
  · rw [map_frames_extendTo Frame.slate_stable]
    exact hscripted.margin

theorem Scripted.step {lines : List Text} {draft : Draft} (hscripted : Scripted lines draft)
    (hscoped : Scoped lines draft) (hshaped : draft.Shaped) (hnodup : draft.marks.Nodup) (raw : Text) :
    Scripted (lines ++ [raw]) (draft.step lines.length raw) := by
  have hslates : ∀ slate ∈ (draft.closedBy raw).frames.map Frame.slate,
      slate ∈ draft.frames.map Frame.slate ∨ slate.1 ∈ ([] : List Mark) ∧ slate.2 = none :=
    fun slate hslate => .inl (mem_slates_of_closedBy hslate)
  have hplaces : (draft.closedBy raw).places.map Place.mark = draft.places.map Place.mark ++ [] := by
    rw [places_closedBy, List.append_nil]
  have hstep := step_cases draft lines.length raw
  generalize draft.step lines.length raw = next at hstep ⊢
  cases hstep with
  | blank hblank =>
    exact hscripted.concat hscoped [] (fun _ _ _ => .inl (.inl hblank)) (List.append_nil _).symm
      (by simp) (fun slate hslate => .inl hslate)
  | hoisted hblank hscript himport =>
    apply Scripted.extendTo
    exact hscripted.concat hscoped [] (fun _ _ _ => .inl (.inr himport)) hplaces (by simp) hslates
  | captured hblank himport hframes hcontent =>
    exact (hscripted.captured hscoped hshaped hnodup hblank himport hframes hcontent).extendTo _ _
  | dropped hblank hscript =>
    exact hscripted.concat hscoped []
      (fun mark hmark hmarkScript => .inr (hscoped.not_isOpen_script hshaped hblank hscript hmark hmarkScript))
      hplaces (by simp) hslates
  | @attached hblank hscript node faults log hread hfresh hline =>
    obtain ⟨_, hadded⟩ := hfresh.places_place
      (holder? (draft.closedBy raw).frames (node.place (lineSpan lines.length raw))) (lineSpan lines.length raw)
    refine hscripted.concat hscoped ((node.place (lineSpan lines.length raw)).mark ::
        (node.place (lineSpan lines.length raw)).children.map Node.mark)
      (fun mark hmark hmarkScript => .inr (hscoped.not_isOpen_script hshaped hblank hscript hmark hmarkScript))
      ?_ ?_ ?_
    · rw [places_attached, List.map_append, hadded]
      simp
    · refine List.forall_mem_cons.mpr ⟨⟨?_, ?_⟩, fun mark hmark => ?_⟩
      · exact congrArg (Option.map Prod.fst) (Node.start?_head_mark (Node.span?_place _ node))
      · simpa [Node.mark] using hfresh.head_content
      · obtain ⟨child, hchild, rfl⟩ := List.mem_map.mp hmark
        obtain ⟨hbuiltIn, _, hspan⟩ := hfresh.builtIn _ child hchild
        exact ⟨congrArg (Option.map Prod.fst) (Node.start?_head_mark hspan), hbuiltIn.head_content⟩
    · rw [map_frames_extendTo Frame.slate_stable, map_frames_attach Frame.slate_stable]
      intro slate hslate
      split at hslate
      · obtain rfl | hrest := List.mem_cons.mp hslate
        · rw [Frame.slate, Frame.opened_node]
          exact .inr ⟨by simp, rfl⟩
        · exact .inl (mem_slates_of_closedBy hrest)
      · exact .inl (mem_slates_of_closedBy hslate)

end Draft

namespace Document

/-- The places of a draft were added by the lines below the signature line. -/
theorem draft_added (first : Text) (body : List Text) :
    Added 1 (1 + body.length) ((draft first body).places.map Place.head) := by
  obtain ⟨added, hadded, hplaces⟩ :=
    ((Draft.empty_shaped (Signature.read first 0).2).grows_run 1 body).places
  rw [draft, hplaces]
  simpa [Draft.places, Draft.empty, Draft.openPlaces, Node.placesForest] using hadded

theorem draft_marks_nodup (first : Text) (body : List Text) : (draft first body).marks.Nodup := by
  rw [Draft.marks_eq_map_head]
  exact (draft_added first body).nodup

theorem draft_scripted (first : Text) (body : List Text) :
    (draft first body).Scripted (first :: body) := by
  induction body using List.reverseRecOn with
  | nil => exact Draft.empty_scripted _ first
  | append_singleton body raw ih =>
    rw [draft_concat]
    exact ih.step (draft_scoped first body) (draft_shaped first body) (draft_marks_nodup first body) raw

end Document

end ViewMarkup
