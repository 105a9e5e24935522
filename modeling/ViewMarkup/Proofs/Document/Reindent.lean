import Mathlib.Data.Int.ConditionallyCompleteOrder
import ViewMarkup.Proofs.Document.Realign
import ViewMarkup.Proofs.Document.Scope
import ViewMarkup.Proofs.Text.Pieces

namespace ViewMarkup

/-- A blank line as it is, or another line with as many blanks in front as its new indent says. -/
inductive Text.Reindented (f : Nat → Nat) : Text → Text → Prop where
  | blank {raw : Text} (hblank : Text.trim raw = []) : Reindented f raw raw
  | moved {raw blanks : Text} (hline : Text.trim raw ≠ []) (hblanks : ∀ c ∈ blanks, isBlank c)
      (hlength : blanks.length = f (Text.indent raw)) : Reindented f raw (blanks ++ Text.trimStart raw)

/-- The same text behind other blanks, with the indent changed by a function. -/
structure Text.Realigned (f : Int → Int) (raw raw' : Text) : Prop where
  trimStart : Text.trimStart raw' = Text.trimStart raw
  indent : Text.trim raw ≠ [] → (Text.indent raw' : Int) = f (Text.indent raw)

namespace Text

variable {f : Int → Int} {raw raw' : Text}

theorem Realigned.refl (raw : Text) : Realigned id raw raw :=
  ⟨rfl, fun _ => rfl⟩

theorem Realigned.trim (hraw : Realigned f raw raw') : Text.trim raw' = Text.trim raw :=
  congrArg trimEnd hraw.trimStart

theorem Realigned.isItem (hraw : Realigned f raw raw') : Text.isItem raw' = Text.isItem raw := by
  rw [Text.isItem, Text.isItem, hraw.trim]

theorem Reindented.realigned {f : Nat → Nat} (hraw : Reindented f raw raw') :
    Realigned (fun indent => f indent.toNat) raw raw' := by
  cases hraw with
  | blank hblank => exact ⟨rfl, fun hline => absurd hblank hline⟩
  | moved hline hblanks hlength =>
    have hstart : (Text.trimStart raw).takeWhile isBlank = [] := by
      rw [Text.trimStart, List.takeWhile_eq_nil_iff]
      exact fun hlt => List.dropWhile_get_zero_not isBlank raw hlt
    constructor
    · rw [Text.trimStart, List.dropWhile_append_of_pos hblanks]
      exact List.dropWhile_idempotent isBlank raw
    · intro _
      rw [Text.indent, List.takeWhile_append_of_pos hblanks, hstart, List.append_nil, hlength, Int.toNat_natCast]

/-- A line of script is the line itself or the trimmed line behind its margin. -/
theorem trimStart_scriptLine (margin : Nat) (raw : Text) :
    Text.trimStart (scriptLine margin raw) =
      if margin ≤ Text.indent raw then Text.trimStart raw else Text.trim raw := by
  unfold scriptLine
  split
  · rename_i hmargin
    have hblanks : ∀ c ∈ (raw.takeWhile isBlank).drop margin, isBlank c :=
      fun c hc => List.mem_takeWhile_imp (List.mem_of_mem_drop hc)
    have hsplit : raw.drop margin = (raw.takeWhile isBlank).drop margin ++ Text.trimStart raw := by
      rw [← List.drop_append_of_le_length hmargin, trimStart, List.takeWhile_append_dropWhile]
    rw [hsplit, trimStart, trimStart, List.dropWhile_append_of_pos hblanks, List.dropWhile_idempotent]
  · exact trimStart_trimEnd_trimStart raw

end Text

/-- The columns of a frame with which later lines are compared: its indent and the margin of a script. -/
def Frame.edges (frame : Frame OpenNode) : List Int :=
  frame.indent :: frame.item.margin?.toList.map fun margin : Nat => (margin : Int)

theorem Frame.edges_stable : Frame.Stable Frame.edges := by
  refine ⟨fun _ _ => rfl, fun frame node line column => ?_, fun _ _ _ => rfl⟩
  unfold edges OpenNode.touch
  split <;> rfl

section

variable {f : Int → Int} {s : Set Int} (hmono : StrictMonoOn f s)

include hmono

theorem beq_of_strictMonoOn {a b : Int} (ha : a ∈ s) (hb : b ∈ s) : (f a == f b) = (a == b) := by
  rw [Bool.eq_iff_iff, beq_iff_eq, beq_iff_eq]
  exact hmono.injOn.eq_iff ha hb

theorem Frame.isClosedBy_realign {frame : Frame OpenNode} (hframe : frame.indent ∈ s) {indent : Int}
    (hindent : indent ∈ s) (isItem : Bool) :
    (frame.realign f).isClosedBy (f indent) isItem = frame.isClosedBy indent isItem := by
  have hle : f indent ≤ f frame.indent ↔ indent ≤ frame.indent := hmono.le_iff_le hindent hframe
  simp only [isClosedBy, realign, recast, hle, beq_of_strictMonoOn hmono hframe hindent]

theorem Frame.inList_realign {frames : List (Frame OpenNode)} (hframes : ∀ frame ∈ frames, frame.indent ∈ s)
    {indent : Int} (hindent : indent ∈ s) :
    inList (f indent) (frames.map (Frame.realign f)) = inList indent frames := by
  cases frames with
  | nil => rfl
  | cons frame frames =>
    have hsame := beq_of_strictMonoOn hmono (hframes frame List.mem_cons_self) hindent
    simp only [List.map_cons, inList, realign, recast, hsame]

end

/-- A script takes over the line with the same text behind another margin. -/
theorem OpenNode.withLine_realign {f : Int → Int} {s : Set Int} (hmono : StrictMonoOn f s)
    {container : OpenNode} (hmargin : ∀ margin ∈ container.margin?, (margin : Int) ∈ s) {raw raw' : Text}
    (hraw : Text.Realigned f raw raw') (hline : Text.trim raw ≠ []) (hindent : (Text.indent raw : Int) ∈ s)
    (signature : Text) (body : List Text) :
    ((container.realign f).withLine signature (body.map Text.trimStart) raw').realign id =
      (container.withLine signature body raw).realign f := by
  have hmem : ((container.margin?.getD (Text.indent raw) : Nat) : Int) ∈ s := by
    cases hcases : container.margin? with
    | none => exact hindent
    | some margin => exact hmargin margin hcases
  have hmargin' : (container.margin?.map fun margin : Nat => (f margin).toNat).getD (Text.indent raw') =
      (f (container.margin?.getD (Text.indent raw) : Nat)).toNat := by
    cases container.margin? with
    | none =>
      have hraw' := hraw.indent hline
      simp only [Option.map_none, Option.getD_none]
      omega
    | some margin => rfl
  simp only [withLine, realign, hmargin']
  generalize container.margin?.getD (Text.indent raw) = margin at hmem hmargin'
  have hle : (f margin).toNat ≤ Text.indent raw' ↔ margin ≤ Text.indent raw := by
    rw [Int.toNat_le, hraw.indent hline, hmono.le_iff_le hmem hindent, Int.ofNat_le]
  have hscript : Text.trimStart (scriptLine (f margin).toNat raw') =
      Text.trimStart (scriptLine margin raw) := by
    simp only [Text.trimStart_scriptLine, hle, hraw.trimStart, hraw.trim]
  have hbody : (body.map Text.trimStart).map Text.trimStart = body.map Text.trimStart := by
    rw [List.map_map]
    exact List.map_congr_left fun t _ => List.dropWhile_idempotent _ t
  simp only [Content.flush, List.map_append, hbody, List.map_cons, hscript, Node.map_flush_flush]
  rfl

namespace Draft

/-- Every column with which later lines are compared is in a set. -/
def Within (s : Set Int) (draft : Draft) : Prop :=
  ∀ edges ∈ draft.frames.map Frame.edges, ∀ edge ∈ edges, edge ∈ s

theorem within_univ (draft : Draft) : draft.Within Set.univ :=
  fun _ _ _ _ => trivial

theorem Within.closedBy {s : Set Int} {draft : Draft} (hdraft : draft.Within s) (raw : Text) :
    (draft.closedBy raw).Within s := by
  intro edges hedges
  rw [map_frames_closedBy Frame.edges_stable] at hedges
  exact hdraft edges (List.map_subset _ (List.dropWhile_suffix _).subset hedges)

theorem Within.indent {s : Set Int} {draft : Draft} (hdraft : draft.Within s) :
    ∀ frame ∈ draft.frames, frame.indent ∈ s :=
  fun frame hframe => hdraft frame.edges (List.mem_map_of_mem hframe) _ List.mem_cons_self

theorem Within.margin {s : Set Int} {draft : Draft} (hdraft : draft.Within s) :
    ∀ frame ∈ draft.frames, ∀ margin ∈ frame.item.margin?, (margin : Int) ∈ s := by
  intro frame hframe margin hmargin
  refine hdraft frame.edges (List.mem_map_of_mem hframe) _ (List.mem_cons_of_mem _ ?_)
  exact List.mem_map_of_mem (Option.mem_toList.mpr hmargin)

/-- A line is compared with earlier lines only. -/
theorem Step.within {s : Set Int} {draft next : Draft} {line : Int} {raw : Text}
    (hstep : Step draft line raw next) (hindent : Text.trim raw ≠ [] → (Text.indent raw : Int) ∈ s)
    (hdraft : draft.Within s) : next.Within s := by
  have hclosed := hdraft.closedBy raw
  cases hstep with
  | blank => exact hdraft
  | hoisted =>
    rw [Within, map_frames_extendTo Frame.edges_stable]
    exact hclosed
  | captured hblank himport hframes hcontent =>
    rename_i frame frames signature body
    rw [Within, map_frames_extendTo Frame.edges_stable, List.map_cons, List.forall_mem_cons]
    rw [Within, hframes, List.map_cons, List.forall_mem_cons] at hclosed
    refine ⟨?_, hclosed.2⟩
    simp only [Frame.edges, List.forall_mem_cons] at hclosed ⊢
    refine ⟨hclosed.1.1, ?_⟩
    cases hmargin : frame.item.margin? with
    | none => simpa [OpenNode.withLine, hmargin] using hindent hblank
    | some margin => simpa [OpenNode.withLine, hmargin] using hclosed.1.2
  | dropped => exact hclosed
  | attached hblank =>
    rw [Within, map_frames_extendTo Frame.edges_stable, map_frames_attach Frame.edges_stable]
    split
    · rw [List.forall_mem_cons]
      exact ⟨List.forall_mem_singleton.mpr (hindent hblank), hclosed⟩
    · exact hclosed

theorem realign_hoist (f offset : Int → Int) (draft : Draft) (text : Text) :
    (draft.hoist text).realign f offset = (draft.realign f offset).hoist text := rfl

theorem realign_push (f offset : Int → Int) (draft : Draft) (frame : Frame OpenNode) :
    (draft.push frame).realign f offset = (draft.realign f offset).push (frame.realign f) := rfl

theorem attach_realign {f : Int → Int} (offset : Int → Int) (draft : Draft) (node : Node) (line : Int)
    {raw raw' : Text} (hindent : (Text.indent raw' : Int) = f (Text.indent raw)) :
    ((draft.realign f offset).attach node line raw').realign id (fun _ => 0) =
      (draft.attach node line raw).realign f offset := by
  have hplace := node.flush_place_lineSpan line raw raw'
  have htouch : ((draft.realign f offset).touch (node.place (lineSpan line raw')) line raw'.length).realign id
      (fun _ => 0) = (draft.touch (node.place (lineSpan line raw)) line raw.length).realign f offset := by
    rw [realign_touch, realign_touch, realign_realign, hplace]
  rw [attach_eq, attach_eq]
  split
  · rw [realign_push, realign_push, htouch, Frame.opened_realign hindent]
  · rw [realign_adopt, realign_adopt, htouch, hplace]

section

variable {f offset : Int → Int} {s : Set Int} (hmono : StrictMonoOn f s) {draft : Draft} (hdraft : draft.Within s)
  {line : Int} {raw raw' : Text} (hraw : Text.Realigned f raw raw') (hline : Text.trim raw ≠ [])
  (hindent : (Text.indent raw : Int) ∈ s)

include hmono hdraft hraw hline hindent

theorem closedBy_realign :
    (draft.realign f offset).closedBy raw' = (draft.closedBy raw).realign f offset := by
  have hcloses : ∀ frame ∈ draft.frames, (frame.realign f).isClosedBy (Text.indent raw') (Text.isItem raw') =
      frame.isClosedBy (Text.indent raw) (Text.isItem raw) := by
    intro frame hframe
    rw [hraw.indent hline, hraw.isItem]
    exact Frame.isClosedBy_realign hmono (hdraft.indent frame hframe) hindent _
  have hsettle := settle_realign f hcloses draft.roots
  simp only [closedBy, close, realign, hsettle]

theorem inList_sourceLine_realign :
    ((draft.realign f offset).sourceLine line raw').inList = (draft.sourceLine line raw).inList := by
  simp only [sourceLine, realign, hraw.isItem, hraw.indent hline,
    Frame.inList_realign hmono hdraft.indent hindent]

/-- The line says the same, and its faults are moved with it. -/
theorem read?_sourceLine_realign (hoffset : offset line = f (Text.indent raw) - Text.indent raw) :
    ((draft.realign f offset).sourceLine line raw').read? = (draft.sourceLine line raw).read?.map fun reading =>
      { reading with diagnostics := reading.diagnostics.map (Diagnostic.shift offset) } := by
  have hmoved : ((draft.realign f offset).sourceLine line raw').read? =
      (draft.sourceLine line raw).read?.map (Reading.moveTo line (Text.indent raw' - Text.indent raw)) :=
    SourceLine.read?_moveTo hraw.trim (inList_sourceLine_realign hmono hdraft hraw hline hindent)
  rw [hmoved, hraw.indent hline, ← hoffset]
  cases hread : (draft.sourceLine line raw).read? with
  | none => rfl
  | some reading =>
    have hfaults : reading.diagnostics.map (Diagnostic.moveTo line (offset line)) =
        reading.diagnostics.map (Diagnostic.shift offset) := by
      apply List.map_congr_left
      intro fault hfault
      have hplace : fault.moveTo line 0 = fault := SourceLine.moveTo_of_read? hread hfault
      rw [← hplace]
      simp [Diagnostic.moveTo, Diagnostic.shift]
    simp only [Option.map_some, Reading.moveTo, hfaults]

end

/-- A line that a script takes over, with the draft around the script. -/
theorem push_withLine_realign {f : Int → Int} (offset : Int → Int) {s : Set Int} (hmono : StrictMonoOn f s)
    (draft : Draft) {frame : Frame OpenNode} (hmargin : ∀ margin ∈ frame.item.margin?, (margin : Int) ∈ s)
    {raw raw' : Text} (hraw : Text.Realigned f raw raw') (hline : Text.trim raw ≠ [])
    (hindent : (Text.indent raw : Int) ∈ s) (signature : Text) (body : List Text) :
    ((draft.realign f offset).push { frame.realign f with
        item := (frame.item.realign f).withLine signature (body.map Text.trimStart) raw' }).realign id
          (fun _ => 0) =
      (draft.push { frame with item := frame.item.withLine signature body raw }).realign f offset := by
  have hframe : Frame.realign id { frame.realign f with
      item := (frame.item.realign f).withLine signature (body.map Text.trimStart) raw' } =
        Frame.realign f { frame with item := frame.item.withLine signature body raw } :=
    congrArg (Frame.mk (f frame.indent) frame.isList)
      (OpenNode.withLine_realign hmono hmargin hraw hline hindent signature body)
  rw [realign_push, realign_push, realign_realign, hframe]

/-- A line under its new indent does to the realigned draft what it did to the draft. -/
theorem step_realign {f offset : Int → Int} {s : Set Int} (hmono : StrictMonoOn f s) {draft : Draft}
    (hdraft : draft.Within s) {line : Int} {raw raw' : Text} (hraw : Text.Realigned f raw raw')
    (hindent : Text.trim raw ≠ [] → (Text.indent raw : Int) ∈ s)
    (hoffset : Text.trim raw ≠ [] → offset line = f (Text.indent raw) - Text.indent raw) :
    ((draft.realign f offset).step line raw').realign id (fun _ => 0) =
      (draft.step line raw).realign f offset := by
  have hclosed (hline : Text.trim raw ≠ []) :
      (draft.realign f offset).closedBy raw' = (draft.closedBy raw).realign f offset :=
    closedBy_realign hmono hdraft hraw hline (hindent hline)
  have hscript : ((draft.closedBy raw).realign f offset).inScript = (draft.closedBy raw).inScript :=
    inScript_realign f offset (draft.closedBy raw)
  have hsource (hline : Text.trim raw ≠ []) :=
    read?_sourceLine_realign hmono (hdraft.closedBy raw) hraw hline (hindent hline) (hoffset hline)
  have hline' (hline : Text.trim raw ≠ []) : Text.trim raw' ≠ [] := hraw.trim ▸ hline
  have hstep := step_cases draft line raw
  generalize draft.step line raw = next at hstep
  cases hstep with
  | blank hblank =>
    have hstep' : Step (draft.realign f offset) line raw' (draft.realign f offset) :=
      .blank (hraw.trim.trans hblank)
    rw [hstep'.eq, realign_realign]
  | hoisted hline hinScript himport =>
    rw [← hscript, ← hclosed hline] at hinScript
    rw [← hraw.trim] at himport
    rw [(Step.hoisted (hline' hline) hinScript himport).eq, hclosed hline, hraw.trim, realign_extendTo,
      realign_extendTo, realign_hoist, realign_hoist, realign_realign]
  | captured hline himport hframes hcontent =>
    rename_i frame frames signature body
    rw [← hraw.trim] at himport
    have hframes' : ((draft.realign f offset).closedBy raw').frames =
        frame.realign f :: frames.map (Frame.realign f) := by
      rw [hclosed hline, realign, hframes, List.map_cons]
    have hcontent' : (frame.realign f).item.content = .script signature (body.map Text.trimStart) := by
      simp only [Frame.recast, OpenNode.realign, hcontent, Content.flush]
    have hmargin := (hdraft.closedBy raw).margin frame (hframes ▸ List.mem_cons_self)
    have hpush := push_withLine_realign offset hmono { draft.closedBy raw with frames } hmargin hraw hline
      (hindent hline) signature body
    rw [(Step.captured (hline' hline) himport hframes' hcontent').eq, realign_extendTo, realign_extendTo,
      hclosed hline]
    exact congrArg (extendTo line 0) hpush
  | dropped hline hinScript hread hfault =>
    rename_i fault log
    have hread' := hsource hline
    rw [hread, Option.map_some, ← hclosed hline] at hread'
    rw [← hscript, ← hclosed hline] at hinScript
    rw [(Step.dropped (hline' hline) hinScript hread' hfault).eq, hclosed hline, realign_reporting,
      realign_reporting, realign_realign, Diagnostic.map_shift_zero]
    rfl
  | attached hline hinScript hread hfresh hfaults =>
    rename_i node faults log
    have hread' := hsource hline
    have hlist : (((draft.closedBy raw).realign f offset).sourceLine line raw').inList =
        ((draft.closedBy raw).sourceLine line raw).inList :=
      inList_sourceLine_realign hmono (hdraft.closedBy raw) hraw hline (hindent hline)
    rw [hread, Option.map_some, ← hclosed hline] at hread'
    rw [← hscript, ← hclosed hline] at hinScript
    rw [← hlist, ← hclosed hline] at hfresh
    rw [(Step.attached (hline' hline) hinScript hread' hfresh ?_).eq, hclosed hline, realign_extendTo,
      realign_extendTo, ← realign_reporting, attach_realign offset _ node line (hraw.indent hline)]
    simpa [Diagnostic.shift] using hfaults

/-- Drafts that agree up to a realignment still do after the same lines under their new indents. -/
theorem run_realign {f offset : Int → Int} {s : Set Int} (hmono : StrictMonoOn f s) {body body' : List Text}
    (hbody : List.Forall₂ (Text.Realigned f) body body')
    (hindents : ∀ raw ∈ body, Text.trim raw ≠ [] → (Text.indent raw : Int) ∈ s) {draft draft' : Draft}
    (hdraft : draft.Within s) (hsame : draft'.realign id (fun _ => 0) = draft.realign f offset) {line : Int}
    (hoffset : ∀ (i : Nat) raw, body[i]? = some raw → Text.trim raw ≠ [] →
      offset (line + i) = f (Text.indent raw) - Text.indent raw) :
    (draft'.run line body').realign id (fun _ => 0) = (draft.run line body).realign f offset := by
  induction hbody generalizing draft draft' line with
  | nil => exact hsame
  | @cons raw raw' body body' hraw _ ih =>
    have hindent := hindents raw List.mem_cons_self
    -- The realigned draft takes the place of the other one, since realigning twice changes nothing.
    have hself : ((draft'.realign id fun _ => 0).step line raw').realign id (fun _ => 0) =
        (draft'.step line raw').realign id fun _ => 0 :=
      step_realign strictMonoOn_id draft'.within_univ (.refl raw') (fun _ => trivial)
        fun _ => (Int.sub_self _).symm
    have hfirst : ((draft.realign f offset).step line raw').realign id (fun _ => 0) =
        (draft.step line raw).realign f offset := by
      refine step_realign hmono hdraft hraw hindent fun hline => ?_
      simpa using hoffset 0 raw rfl hline
    rw [← hsame, hself] at hfirst
    refine ih (fun other hother => hindents other (List.mem_cons_of_mem _ hother))
      ((step_cases draft line raw).within hindent hdraft) hfirst fun i other hother hline => ?_
    rw [← hoffset (i + 1) other hother hline]
    congr 1
    omega

end Draft

namespace Document

/-- How far the indent of a line below the signature is changed. -/
def indentChange (f : Nat → Nat) (body : List Text) (line : Int) : Int :=
  if line ≤ 0 then 0 else
    body[(line - 1).toNat]?.elim 0 fun raw => (f (Text.indent raw) : Int) - Text.indent raw

theorem indentChange_succ (f : Nat → Nat) {body : List Text} {i : Nat} {raw : Text} (hraw : body[i]? = some raw) :
    indentChange f body (1 + i) = (f (Text.indent raw) : Int) - Text.indent raw := by
  have hindex : (1 + (i : Int) - 1).toNat = i := by omega
  rw [indentChange, if_neg (by omega), hindex, hraw, Option.elim_some]

theorem draft_reindent (first : Text) {body body' : List Text} {f : Nat → Nat}
    (hmono : StrictMonoOn f {d | ∃ raw ∈ body, Text.trim raw ≠ [] ∧ Text.indent raw = d})
    (hbody : List.Forall₂ (Text.Reindented f) body body') :
    (draft first body').realign id (fun _ => 0) =
      (draft first body).realign (fun indent => f indent.toNat) (indentChange f body) := by
  have hfaults : (Signature.read first 0).2.map (Diagnostic.shift (indentChange f body)) =
      (Signature.read first 0).2 := by
    rw [Signature.faults_moveTo first 0 0, List.map_map]
    apply List.map_congr_left
    intro fault _
    simp [Diagnostic.moveTo, Diagnostic.shift, indentChange]
  have hmono' : StrictMonoOn (fun indent : Int => (f indent.toNat : Int))
      {indent | ∃ raw ∈ body, Text.trim raw ≠ [] ∧ (Text.indent raw : Int) = indent} := by
    rintro _ ⟨raw, hraw, hline, rfl⟩ _ ⟨other, hother, hline', rfl⟩ hlt
    exact Int.ofNat_lt.mpr (hmono ⟨raw, hraw, hline, rfl⟩ ⟨other, hother, hline', rfl⟩ (Int.ofNat_lt.mp hlt))
  refine Draft.run_realign hmono' (hbody.imp fun _ _ => Text.Reindented.realigned)
    (fun raw hraw hline => ⟨raw, hraw, hline, rfl⟩) (fun _ hedges => absurd hedges List.not_mem_nil) ?_
    fun i raw hraw _ => indentChange_succ f hraw
  simp only [Draft.realign, Draft.empty, List.map_nil, hfaults, Diagnostic.map_shift_zero]

/-- Only the order of the indents matters. Lines below the signature whose indents are changed by a strictly
increasing function, with any blanks, give the same signature, imports and nodes, up to columns and the
margins of script lines, and the same faults, each moved with its line. -/
theorem ofText_reindent {t u first : Text} {body body' : List Text} {f : Nat → Nat}
    (hlines : Text.lines t = first :: body) (hmoved : Text.lines u = first :: body')
    (hfirst : Text.trim first ≠ [])
    (hmono : StrictMonoOn f {d | ∃ raw ∈ body, Text.trim raw ≠ [] ∧ Text.indent raw = d})
    (hbody : List.Forall₂ (Text.Reindented f) body body') :
    (ofText u).signature? = (ofText t).signature? ∧ (ofText u).imports = (ofText t).imports ∧
      (ofText u).nodes.map Node.flush = (ofText t).nodes.map Node.flush ∧
      (ofText u).diagnostics = (ofText t).diagnostics.map (Diagnostic.shift (indentChange f body)) := by
  have hdraft := draft_reindent first hmono hbody
  have hforest := congrArg Draft.forest hdraft
  have hfaults := congrArg Draft.diagnostics hdraft
  have himports := congrArg Draft.imports hdraft
  rw [Draft.forest_realign, Draft.forest_realign] at hforest
  simp only [Draft.realign, Diagnostic.map_shift_zero] at hfaults himports
  rw [ofText_of_lines hlines hfirst, ofText_of_lines hmoved hfirst]
  exact ⟨rfl, himports, hforest, hfaults⟩

/-- A list with a script whose last line starts before its margin, and a line with a fault, under indents
that grow unevenly. -/
theorem ofText_reindent_script :
    (ofText "Page()\n\t- a\n \t :js\n        go()\n       run()\n\n :Card x=").nodes.map Node.flush =
        (ofText "Page()\n- a\n  :js\n    go()\n   run()\n\n:Card x=").nodes.map Node.flush ∧
      (ofText "Page()\n\t- a\n \t :js\n        go()\n       run()\n\n :Card x=").diagnostics =
        [.error .invalidProperty "Invalid property: x=" 6 7 9] := by
  let f : Nat → Nat := fun d => if d < 3 then d + 1 else d + 4
  have hmove (raw blanks : Text) (hline : Text.trim raw ≠ [] ∧ blanks.all isBlank ∧
      blanks.length = f (Text.indent raw)) : Text.Reindented f raw (blanks ++ Text.trimStart raw) :=
    .moved hline.1 (List.all_eq_true.mp hline.2.1) hline.2.2
  have hbody : List.Forall₂ (Text.Reindented f)
      (["- a", "  :js", "    go()", "   run()", "", ":Card x="].map String.toList)
      (["\t- a", " \t :js", "        go()", "       run()", "", " :Card x="].map String.toList) :=
    .cons (hmove "- a" "\t" (by decide +kernel)) (.cons (hmove "  :js" " \t " (by decide +kernel))
      (.cons (hmove "    go()" "        " (by decide +kernel))
        (.cons (hmove "   run()" "       " (by decide +kernel))
          (.cons (.blank rfl) (.cons (hmove ":Card x=" " " (by decide +kernel)) .nil)))))
  have hmono : StrictMono f := by
    intro d e hlt
    simp only [f]
    split <;> split <;> omega
  have hlines : Text.lines "Page()\n- a\n  :js\n    go()\n   run()\n\n:Card x=" = "Page()".toList ::
      ["- a", "  :js", "    go()", "   run()", "", ":Card x="].map String.toList := by decide +kernel
  have hmoved : Text.lines "Page()\n\t- a\n \t :js\n        go()\n       run()\n\n :Card x=" =
      "Page()".toList ::
        ["\t- a", " \t :js", "        go()", "       run()", "", " :Card x="].map String.toList := by
    decide +kernel
  have hsame := ofText_reindent hlines hmoved (by decide +kernel) (hmono.strictMonoOn _) hbody
  exact ⟨hsame.2.2.1, hsame.2.2.2.trans (by decide +kernel)⟩

end Document

end ViewMarkup
