import ViewMarkup.Proofs.Document.Account
import ViewMarkup.Proofs.Document.Renumber
import ViewMarkup.Proofs.Document.Scope
import ViewMarkup.Proofs.Text.Distinct

namespace ViewMarkup

namespace Draft

/-- The draft with every container closed. -/
def finished (draft : Draft) : Draft :=
  { draft with roots := draft.forest, frames := [] }

/-- A draft that goes on behind a finished one. -/
def followedBy (base draft : Draft) : Draft where
  roots := base.roots ++ draft.roots
  frames := draft.frames
  diagnostics := base.diagnostics ++ draft.diagnostics
  imports := (base.imports ++ draft.imports).eraseDups
  log := base.log ++ draft.log

section FollowedBy

variable (base draft : Draft)

theorem settle_append (closes : Frame OpenNode → Bool) (earlier roots : List Node) (pending? : Option Node)
    (frames : List (Frame OpenNode)) :
    settle closes (earlier ++ roots) pending? frames =
      (earlier ++ (settle closes roots pending? frames).1, (settle closes roots pending? frames).2) := by
  induction frames generalizing pending? with
  | nil => simp [settle]
  | cons frame frames ih =>
    simp only [settle]
    split
    · exact ih _
    · rfl

theorem closedBy_followedBy (raw : Text) :
    (base.followedBy draft).closedBy raw = base.followedBy (draft.closedBy raw) := by
  simp only [closedBy, close, followedBy, settle_append]

theorem forest_followedBy : (base.followedBy draft).forest = base.roots ++ draft.forest := by
  simp only [forest, followedBy, settle_append]

/-- An import that is new to the draft but not to the base is left out. -/
theorem hoist_followedBy (text : Text) :
    (base.followedBy draft).hoist text = base.followedBy (draft.hoist text) := by
  have himports : (if (base.imports ++ draft.imports).eraseDups.contains text then
      (base.imports ++ draft.imports).eraseDups else (base.imports ++ draft.imports).eraseDups ++ [text]) =
      (base.imports ++ (draft.hoist text).imports).eraseDups := by
    rw [← eraseDups_concat, hoist]
    by_cases hknown : draft.imports.contains text
    · rw [if_pos hknown, eraseDups_concat, if_pos (by simp_all)]
    · rw [if_neg hknown, List.append_assoc]
  simp only [followedBy] at himports ⊢
  rw [← himports]
  rfl

theorem reporting_followedBy (faults : List Diagnostic) (log : List LogRecord) :
    (base.followedBy draft).reporting faults log = base.followedBy (draft.reporting faults log) := by
  simp [reporting, followedBy]

theorem attach_followedBy (node : Node) (line : Int) (raw : Text) :
    (base.followedBy draft).attach node line raw = base.followedBy (draft.attach node line raw) := by
  obtain ⟨roots, frames, diagnostics, imports, log⟩ := draft
  cases frames <;> cases hcontainer : (node.place (lineSpan line raw)).content.isContainer <;>
    simp_all [attach, followedBy, lineSpan]

/-- What a line does does not depend on what is finished. -/
theorem Step.followedBy {draft next : Draft} {line : Int} {raw : Text} (hstep : Step draft line raw next) :
    Step (base.followedBy draft) line raw (base.followedBy next) := by
  have hclosed := closedBy_followedBy base draft raw
  have hinScript : ((base.followedBy draft).closedBy raw).inScript = (draft.closedBy raw).inScript := by
    rw [hclosed]
    rfl
  have hsource : ((base.followedBy draft).closedBy raw).sourceLine line raw =
      (draft.closedBy raw).sourceLine line raw := by
    rw [hclosed]
    rfl
  cases hstep with
  | blank hblank => exact .blank hblank
  | hoisted hblank hscript himport =>
    have hstep' : Step (base.followedBy draft) line raw _ := .hoisted hblank (hinScript.trans hscript) himport
    rw [hclosed, hoist_followedBy] at hstep'
    exact hstep'
  | captured hblank himport hframes hcontent =>
    have hstep' : Step (base.followedBy draft) line raw _ :=
      .captured hblank himport ((congrArg Draft.frames hclosed).trans hframes) hcontent
    rw [hclosed] at hstep'
    exact hstep'
  | dropped hblank hscript hread hline =>
    rw [← reporting_followedBy, ← hclosed]
    exact .dropped hblank (hinScript.trans hscript) (hsource ▸ hread) hline
  | attached hblank hscript hread hfresh hline =>
    have hstep' : Step (base.followedBy draft) line raw _ :=
      .attached hblank (hinScript.trans hscript) (hsource ▸ hread) (hsource ▸ hfresh) hline
    rw [hclosed, reporting_followedBy, attach_followedBy] at hstep'
    exact hstep'

theorem run_followedBy (line : Int) (lines : List Text) :
    (base.followedBy draft).run line lines = base.followedBy (draft.run line lines) := by
  induction lines generalizing draft line with
  | nil => rfl
  | cons raw lines ih => rw [run, run, ((step_cases draft line raw).followedBy base).eq, ih]

/-- The imports are kept once each. -/
theorem nodup_imports_run (line : Int) (lines : List Text) : (empty.run line lines).imports.Nodup := by
  have himports := congrArg Draft.imports (run_followedBy empty empty line lines)
  rw [show empty.followedBy empty = empty from rfl] at himports
  rw [himports]
  exact nodup_eraseDups _

/-- What lines add to a finished draft is what they are by themselves. -/
theorem run_eq_followedBy {base : Draft} (hframes : base.frames = []) (himports : base.imports.Nodup)
    (line : Int) (lines : List Text) :
    base.run line lines = base.followedBy (empty.run line lines) := by
  rw [← run_followedBy]
  congr 1
  obtain ⟨roots, frames, diagnostics, imports, log⟩ := base
  subst hframes
  simp [followedBy, empty, eraseDups_of_nodup himports]

end FollowedBy

section Margin

variable {draft : Draft} {raw : Text} {lines : List Text}

theorem finished_finished (draft : Draft) : draft.finished.finished = draft.finished := by
  simp [finished, forest, settle]

theorem settle_of_forall {closes : Frame OpenNode → Bool} (roots : List Node) (pending? : Option Node)
    {frames : List (Frame OpenNode)} (hcloses : ∀ frame ∈ frames, closes frame) :
    settle closes roots pending? frames = ((settle (fun _ => true) roots pending? frames).1, []) := by
  induction frames generalizing pending? with
  | nil => rfl
  | cons frame frames ih =>
    obtain ⟨hframe, hrest⟩ := List.forall_mem_cons.mp hcloses
    simp only [settle, hframe, if_true]
    exact ih _ hrest

/-- A line at the left margin closes everything, unless it is an item. -/
theorem closedBy_of_margin (hindent : Text.indent raw = 0) (hitem : Text.isItem raw = false)
    (hframes : ∀ frame ∈ draft.frames, 0 ≤ frame.indent) : draft.closedBy raw = draft.finished := by
  have hcloses : ∀ frame ∈ draft.frames, frame.isClosedBy (Text.indent raw) (Text.isItem raw) := by
    intro frame hframe
    simp [Frame.isClosedBy, hindent, hitem, hframes frame hframe]
  simp only [closedBy, close, settle_of_forall _ _ hcloses]
  rfl

theorem step_congr {other : Draft} (hblank : Text.trim raw ≠ [])
    (hclosed : draft.closedBy raw = other.closedBy raw) (line : Int) :
    draft.step line raw = other.step line raw := by
  have hclose (draft : Draft) :
      draft.close (Text.indent raw) (item? (Text.trim raw)).isSome = draft.closedBy raw := rfl
  simp only [step, if_neg hblank, hclose, hclosed]

/-- Lines from the left margin on do not see the containers before them. Blank lines leave those open,
so this is about what is finished in the end. -/
theorem run_of_margin (hframes : ∀ frame ∈ draft.frames, 0 ≤ frame.indent)
    (hmargin : ∀ raw, lines.find? (fun raw => Text.trim raw ≠ []) = some raw →
      Text.indent raw = 0 ∧ Text.isItem raw = false) (line : Int) :
    (draft.run line lines).finished = (draft.finished.run line lines).finished := by
  induction lines generalizing line with
  | nil => exact (finished_finished draft).symm
  | cons raw lines ih =>
    by_cases hblank : Text.trim raw = []
    · have hskip (draft : Draft) : draft.step line raw = draft := (Step.blank hblank).eq
      rw [run, run, hskip, hskip]
      refine ih (fun next hnext => hmargin next ?_) _
      rwa [List.find?_cons_of_neg (by simp [hblank])]
    · obtain ⟨hindent, hitem⟩ := hmargin raw (List.find?_cons_of_pos (by simp [hblank]))
      have hclosed : draft.closedBy raw = draft.finished.closedBy raw := by
        rw [closedBy_of_margin hindent hitem hframes,
          closedBy_of_margin hindent hitem (by simp [finished]), finished_finished]
      rw [run, run, step_congr hblank hclosed]

end Margin

end Draft

namespace Document

theorem indent_nonneg (first : Text) (body : List Text) :
    ∀ frame ∈ (draft first body).frames, 0 ≤ frame.indent := by
  intro frame hframe
  have hscoped := draft_scoped first body
  have hhead : frame.head ∈ (draft first body).scopes := List.mem_map_of_mem hframe
  rw [hscoped.scopes, List.mem_reverse] at hhead
  obtain ⟨mark, hmark, hmarkFrame⟩ := List.mem_map.mp hhead
  obtain ⟨k, raw, _, hstart⟩ := hscoped.start mark (List.mem_of_mem_filter hmark)
  have hindent : frame.indent = mark.column := (congrArg Frame.indent hmarkFrame).symm
  rw [hindent, Mark.column, hstart]
  exact Int.natCast_nonneg _

/-- The draft of a signature line is that of the lines below it, with the faults of the signature. -/
theorem draft_eq_followedBy (first : Text) (body : List Text) :
    draft first body =
      { Draft.empty with diagnostics := (Signature.read first 0).2 }.followedBy (Draft.empty.run 1 body) :=
  Draft.run_eq_followedBy rfl List.nodup_nil 1 body

theorem nodup_imports (first : Text) (body : List Text) : (draft first body).imports.Nodup := by
  rw [draft_eq_followedBy]
  exact nodup_eraseDups _

/-- The faults below the signature are those of the lines below it. -/
theorem filter_diagnostics (first : Text) (body : List Text) :
    (draft first body).diagnostics.filter (fun fault => 0 < fault.range.start.line) =
      (Draft.empty.run 1 body).diagnostics := by
  obtain ⟨faults, hfaults, hrun⟩ := ((Draft.empty_shaped []).grows_run 1 body).diagnostics
  change (Draft.empty.run 1 body).diagnostics = [] ++ faults at hrun
  have hbody : ∀ fault ∈ (Draft.empty.run 1 body).diagnostics, 0 < fault.range.start.line := by
    intro fault hfault
    rw [hrun] at hfault
    have hline := (hfaults fault hfault).1
    omega
  have hsignature : ∀ fault ∈ (Signature.read first 0).2, ¬ 0 < fault.range.start.line := by
    intro fault hfault
    rw [Signature.line_of_mem_read hfault]
    omega
  rw [draft_eq_followedBy, Draft.followedBy, List.filter_append, List.filter_eq_nil_iff.mpr (by simpa using hsignature),
    List.filter_eq_self.mpr (by simpa using hbody), List.nil_append]

/-- The draft of some lines and of lines from the left margin on. -/
theorem finished_draft_append (first : Text) (earlier : List Text) {later : List Text}
    (hmargin : ∀ raw, later.find? (fun raw => Text.trim raw ≠ []) = some raw →
      Text.indent raw = 0 ∧ Text.isItem raw = false) :
    (draft first (earlier ++ later)).finished =
      ((draft first earlier).finished.followedBy
        ((Draft.empty.run 1 later).renumber (· + earlier.length))).finished := by
  have hrenumber := Draft.run_renumber (· + (earlier.length : Int)) .empty 1 later fun l _ _ => by omega
  have himports : (draft first earlier).finished.imports.Nodup := nodup_imports first earlier
  rw [draft, Draft.run_append, ← draft, Draft.run_of_margin (indent_nonneg first earlier) hmargin,
    Draft.run_eq_followedBy rfl himports, hrenumber]
  rfl

/-- Lines from the left margin on are read as if they stood alone below the signature: their nodes, faults
and imports follow those of the lines before, on lines that are numbered on. -/
theorem ofText_append {t before after first : Text} {earlier later : List Text}
    (hlines : Text.lines t = first :: (earlier ++ later)) (hearlier : Text.lines before = first :: earlier)
    (hlater : Text.lines after = first :: later) (hfirst : Text.trim first ≠ [])
    (hmargin : ∀ raw, later.find? (fun raw => Text.trim raw ≠ []) = some raw →
      Text.indent raw = 0 ∧ Text.isItem raw = false) :
    (ofText t).nodes =
        (ofText before).nodes ++ (ofText after).nodes.map (Node.renumber (· + earlier.length)) ∧
      (ofText t).diagnostics = (ofText before).diagnostics ++
        ((ofText after).diagnostics.filter fun fault => 0 < fault.range.start.line).map
          (Diagnostic.renumber (· + earlier.length)) ∧
      (ofText t).imports = ((ofText before).imports ++ (ofText after).imports).eraseDups ∧
      (ofText t).signature? = (ofText before).signature? := by
  have hfinished := finished_draft_append first earlier hmargin
  rw [ofText_of_lines hlines hfirst, ofText_of_lines hearlier hfirst, ofText_of_lines hlater hfirst]
  have hlaterDraft := draft_eq_followedBy first later
  refine ⟨?_, ?_, ?_, rfl⟩
  · have hforest : (draft first later).forest = (Draft.empty.run 1 later).forest := by
      rw [hlaterDraft, Draft.forest_followedBy]
      rfl
    have hroots := congrArg Draft.roots hfinished
    simp only [Draft.finished, Draft.forest_followedBy, Draft.forest_renumber] at hroots
    rw [hroots, hforest]
  · rw [filter_diagnostics]
    exact congrArg Draft.diagnostics hfinished
  · have himports : (draft first later).imports = (Draft.empty.run 1 later).imports := by
      rw [hlaterDraft]
      exact eraseDups_of_nodup (Draft.nodup_imports_run 1 later)
    rw [himports]
    exact congrArg Draft.imports hfinished

/-- The second part starts below an open script, after a blank line, and has a fault and a known import. -/
theorem ofText_append_script :
    (ofText "Page()\n:js\n  import a\n  go()\n\n:Card x=\n:js\n  import b\n  import a").nodes =
        (ofText "Page()\n:js\n  import a\n  go()").nodes ++
          (ofText "Page()\n\n:Card x=\n:js\n  import b\n  import a").nodes.map (Node.renumber (· + 3)) ∧
      (ofText "Page()\n:js\n  import a\n  go()\n\n:Card x=\n:js\n  import b\n  import a").diagnostics =
        [.error .invalidProperty "Invalid property: x=" 5 6 8] ∧
      (ofText "Page()\n:js\n  import a\n  go()\n\n:Card x=\n:js\n  import b\n  import a").imports =
        ["import a".toList, "import b".toList] := by
  have hlines : Text.lines "Page()\n:js\n  import a\n  go()\n\n:Card x=\n:js\n  import b\n  import a" =
      "Page()".toList :: ([":js", "  import a", "  go()"].map String.toList ++
        ["", ":Card x=", ":js", "  import b", "  import a"].map String.toList) := by decide +kernel
  have hbefore : Text.lines "Page()\n:js\n  import a\n  go()" =
      "Page()".toList :: [":js", "  import a", "  go()"].map String.toList := by decide +kernel
  have hafter : Text.lines "Page()\n\n:Card x=\n:js\n  import b\n  import a" =
      "Page()".toList :: ["", ":Card x=", ":js", "  import b", "  import a"].map String.toList := by
    decide +kernel
  have hmargin : (["", ":Card x=", ":js", "  import b", "  import a"].map String.toList).find?
      (fun raw => Text.trim raw ≠ []) = some ":Card x=".toList := by decide +kernel
  obtain ⟨hnodes, hdiagnostics, himports, _⟩ := ofText_append hlines hbefore hafter (by decide +kernel)
    fun raw hraw => by
      cases hmargin.symm.trans hraw
      decide +kernel
  exact ⟨hnodes, hdiagnostics.trans (by decide +kernel), himports.trans (by decide +kernel)⟩

end Document

end ViewMarkup
