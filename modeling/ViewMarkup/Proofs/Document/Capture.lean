import ViewMarkup.Proofs.Document.Nesting
import ViewMarkup.Proofs.Text.Distinct
import ViewMarkup.Proofs.Text.Pieces

namespace ViewMarkup

/-- The trailing blanks of a text are what follows its trimmed part. -/
theorem Text.rtakeWhile_between {t trail : Text} (blanks : Text) (htrail : ∀ c ∈ trail, isBlank c) (hne : t ≠ [])
    (htrim : trim t = t) : (blanks ++ t ++ trail).rtakeWhile isBlank = trail := by
  have hend : t.rdropWhile isBlank = t := by
    rw [← htrim, trim, trimEnd_eq_rdropWhile, List.rdropWhile_idempotent]
  have hlast := List.rdropWhile_eq_self_iff.mp hend hne
  rw [← List.dropLast_append_getLast hne, List.rtakeWhile, List.reverse_append,
    List.takeWhile_append_of_pos (by simpa using htrail)]
  simp [hlast]

/-- A line of a script that was cut from a line of the text. Only blanks are cut off, at most as many as the margin
is wide; what is behind them stays as it is, unless the line starts before the margin. -/
structure CutAt (margin : Nat) (raw line : Text) : Prop where
  trim : Text.trim line = Text.trim raw
  indent : Text.indent line = Text.indent raw - margin
  verbatim : margin ≤ Text.indent raw → line <:+ raw ∧ line.rtakeWhile isBlank = raw.rtakeWhile isBlank

theorem cutAt_scriptLine (margin : Nat) {raw : Text} (hblank : Text.trim raw ≠ []) :
    CutAt margin raw (scriptLine margin raw) := by
  obtain ⟨trail, htrail, hraw⟩ := Text.exists_blanks raw
  have hlead : ∀ c ∈ raw.takeWhile isBlank, isBlank c := fun c hc => List.mem_takeWhile_imp hc
  have htrim := Text.trim_trim raw
  rw [scriptLine]
  split
  · rename_i hle
    -- the margin ends within the leading blanks
    have hcut : raw.drop margin = (raw.takeWhile isBlank).drop margin ++ Text.trim raw ++ trail := by
      conv_lhs => rw [hraw]
      rw [List.append_assoc, List.append_assoc, List.drop_append_of_le_length hle]
    obtain ⟨htrimmed, hindent⟩ := Text.trim_between (fun c hc => hlead c (List.mem_of_mem_drop hc)) htrail hblank htrim
    have hend := Text.rtakeWhile_between (raw.takeWhile isBlank) htrail hblank htrim
    rw [← hraw] at hend
    refine ⟨by rw [hcut, htrimmed], by rw [hcut, hindent, List.length_drop]; rfl, fun _ => ⟨List.drop_suffix _ _, ?_⟩⟩
    rw [hcut, hend, Text.rtakeWhile_between _ htrail hblank htrim]
  · rename_i hnot
    have hindent : Text.indent ([] ++ Text.trim raw ++ []) = [].length :=
      (Text.trim_between (List.forall_mem_nil _) (List.forall_mem_nil _) hblank htrim).2
    rw [List.nil_append, List.append_nil] at hindent
    exact ⟨htrim, by rw [hindent, List.length_nil]; omega, fun hle => absurd hle hnot⟩

/-- The block of a line: the lines below it up to the first one that is neither blank nor deeper. -/
def blockAt (lines : List Text) (k : Nat) : List Text :=
  (lines.drop (k + 1)).takeWhile fun raw => decide (Text.trim raw = []) || decide (indentAt lines k < Text.indent raw)

/-- The imports that are hoisted out of a block. -/
def scriptImports (block : List Text) : List Text :=
  (block.map Text.trim).filter isImport

theorem scriptImports_append (block block' : List Text) :
    scriptImports (block ++ block') = scriptImports block ++ scriptImports block' := by
  rw [scriptImports, List.map_append, List.filter_append, scriptImports, scriptImports]

theorem Content.isContainer_of_isScript {content : Content} (hscript : content.isScript) : content.isContainer := by
  obtain ⟨signature, body, rfl⟩ := exists_of_isScript hscript
  rfl

namespace Mark

theorem block_eq_blockAt {lines : List Text} {mark : Mark} {k : Nat} (hscript : mark.content.isScript)
    (hstart : mark.start? = some ((k : Int), indentAt lines k)) : mark.block lines = blockAt lines k := by
  obtain ⟨signature, body, hcontent⟩ := Content.exists_of_isScript hscript
  have hcolumn : mark.column = indentAt lines k := by simp [column, hstart]
  have hbelow : mark.below lines = lines.drop (k + 1) := by simp [below, hstart]
  rw [block, hbelow, hcolumn, hcontent, blockAt]
  congr 1
  funext raw
  simp [Content.outlasts, Content.admits, Content.isList]

/-- A container is closed iff its block ends before the last line. -/
theorem isOpen_eq_false_iff {lines : List Text} {mark : Mark} {k : Nat} {column : Int}
    (hcontainer : mark.content.isContainer) (hstart : mark.start? = some ((k : Int), column)) (hk : k < lines.length) :
    mark.isOpen lines = false ↔ k + (mark.block lines).length + 1 < lines.length := by
  have hbelow : (mark.below lines).length = lines.length - (k + 1) := by simp [below, hstart]
  have hle : (mark.block lines).length ≤ (mark.below lines).length := (List.takeWhile_sublist _).length_le
  have hwhole : mark.isOpen lines ↔ (mark.block lines).length = (mark.below lines).length := by
    rw [isOpen, hcontainer, Bool.true_and, List.all_eq_true, ← List.takeWhile_eq_self_iff]
    exact ⟨congrArg List.length, (List.takeWhile_prefix _).eq_of_length⟩
  rw [Bool.eq_false_iff, ne_eq, hwhole]
  omega

end Mark

/-- The scripts of a forest, in order. -/
def Node.scripts (forest : List Node) : List Node :=
  (preorderForest forest).filter fun node => node.content.isScript

namespace Draft

/-- The scripts of a draft, in the order of lines. -/
def scripts (draft : Draft) : List Mark :=
  draft.marks.filter fun mark => mark.content.isScript

theorem scripts_eq_map_head (draft : Draft) :
    draft.scripts = (Node.scripts draft.forest).map fun script => script.mark.head := by
  rw [scripts, marks_eq_preorder, List.filter_map, Node.scripts]
  congr 1
  refine List.filter_congr fun node _ => ?_
  simp [Mark.head, Node.mark]

theorem mem_scripts {draft : Draft} {mark : Mark} :
    mark ∈ draft.scripts ↔ mark ∈ draft.marks ∧ mark.content.isScript :=
  List.mem_filter

/-- The block of a script ends before the line of another one. -/
def BlockBefore (lines : List Text) (mark other : Mark) : Prop :=
  ∀ k ∈ mark.line?, ∀ l ∈ other.line?, k + (mark.block lines).length < l

section Scoped

variable {lines : List Text} {draft : Draft} (hscoped : Scoped lines draft)

include hscoped

/-- A script is closed by the line of a later one, so only the last script can be open. -/
theorem Scoped.not_isOpen_of_blockBefore {mark other : Mark} (hmark : mark ∈ draft.scripts)
    (hother : other ∈ draft.scripts) (hbefore : BlockBefore lines mark other) (raw : Text) :
    mark.isOpen (lines ++ [raw]) = false := by
  obtain ⟨hmark, hscript⟩ := mem_scripts.mp hmark
  obtain ⟨k, opening, hopening, hstart⟩ := hscoped.start mark hmark
  obtain ⟨l, _, hother, hstart'⟩ := hscoped.start other (mem_scripts.mp hother).1
  have hk := (List.getElem?_eq_some_iff.mp hopening).1
  have hl := (List.getElem?_eq_some_iff.mp hother).1
  have hlt := hbefore k (by simp [Mark.line?, hstart]) l (by simp [Mark.line?, hstart'])
  have hclosed := (Mark.isOpen_eq_false_iff (Content.isContainer_of_isScript hscript) hstart hk).mpr (by omega)
  rw [hscoped.isOpen_concat hmark, hclosed, Bool.false_and]

/-- The block of a script goes on with a line exactly if the line leaves the script open. -/
theorem Scoped.block_concat {mark : Mark} (hmark : mark ∈ draft.scripts) (raw : Text) :
    mark.block (lines ++ [raw]) =
      if mark.isOpen (lines ++ [raw]) then mark.block lines ++ [raw] else mark.block lines := by
  obtain ⟨hmark, hscript⟩ := mem_scripts.mp hmark
  obtain ⟨k, opening, hopening, hstart⟩ := hscoped.start mark hmark
  exact Mark.block_concat raw (Content.isContainer_of_isScript hscript) hstart
    (List.getElem?_eq_some_iff.mp hopening).1

/-- One more line adds its imports behind all others, if a script is open. -/
theorem Scoped.flatMap_scriptImports {marks : List Mark} (hmarks : ∀ mark ∈ marks, mark ∈ draft.scripts)
    (hapart : marks.Pairwise (BlockBefore lines)) (raw : Text) :
    (marks.flatMap fun mark => scriptImports (mark.block (lines ++ [raw]))) =
      (marks.flatMap fun mark => scriptImports (mark.block lines)) ++
        if marks.any (Mark.isOpen (lines ++ [raw])) then scriptImports [raw] else [] := by
  induction hapart with
  | nil => rfl
  | @cons mark marks hbefore _ ih =>
    obtain ⟨hmark, hmarks⟩ := List.forall_mem_cons.mp hmarks
    rw [List.flatMap_cons, List.flatMap_cons, List.any_cons, hscoped.block_concat hmark]
    cases hopen : mark.isOpen (lines ++ [raw]) with
    | false => rw [ih hmarks, if_neg Bool.false_ne_true, List.append_assoc, Bool.false_or]
    | true =>
      cases marks with
      | nil => simp [scriptImports_append]
      | cons other marks =>
        have hclosed := hscoped.not_isOpen_of_blockBefore hmark (hmarks other List.mem_cons_self)
          (hbefore other List.mem_cons_self) raw
        simp [hclosed] at hopen

/-- Below a script, some script is open. -/
theorem Scoped.any_isOpen_of_inScript {raw : Text} (hblank : Text.trim raw ≠ [])
    (hin : (draft.closedBy raw).inScript) : draft.scripts.any (Mark.isOpen (lines ++ [raw])) := by
  cases hframes : (draft.closedBy raw).frames with
  | nil => simp [inScript, hframes] at hin
  | cons frame frames =>
    have hscript : frame.item.content.isScript := by simpa [inScript, hframes] using hin
    have hmem : frame ∈ (draft.closedBy raw).frames := by simp [hframes]
    have hmark := hscoped.mem_marks_of_slate (mem_slates_of_closedBy (List.mem_map_of_mem (f := Frame.slate) hmem))
    refine List.any_eq_true.mpr ⟨frame.item.node.mark.head, mem_scripts.mpr ⟨hmark, ?_⟩, ?_⟩
    · simpa [Mark.head, Node.mark] using hscript
    · simpa using hscoped.isOpen_of_mem hblank hmem

theorem Scoped.any_isOpen_of_not_inScript (hshaped : draft.Shaped) {raw : Text} (hblank : Text.trim raw ≠ [])
    (hout : (draft.closedBy raw).inScript = false) : draft.scripts.any (Mark.isOpen (lines ++ [raw])) = false := by
  refine List.any_eq_false.mpr fun mark hmark => ?_
  obtain ⟨hmark, hscript⟩ := mem_scripts.mp hmark
  simp [hscoped.not_isOpen_script hshaped hblank hout hmark hscript]

/-- A line adds its imports to those that were gathered before, if a script is open. -/
theorem Scoped.imports_step (hshaped : draft.Shaped) {entries : List Text}
    (hentries : draft.imports = entries.eraseDups) (raw : Text) :
    (draft.step lines.length raw).imports =
      (entries ++ if draft.scripts.any (Mark.isOpen (lines ++ [raw])) then scriptImports [raw] else []).eraseDups := by
  have hkept (hnone : scriptImports [raw] = [] ∨ draft.scripts.any (Mark.isOpen (lines ++ [raw])) = false) :
      draft.imports = (entries ++
        if draft.scripts.any (Mark.isOpen (lines ++ [raw])) then scriptImports [raw] else []).eraseDups := by
    obtain hnone | hnone := hnone
    · rw [hnone, ite_self, List.append_nil, hentries]
    · rw [hnone, if_neg Bool.false_ne_true, List.append_nil, hentries]
  have hstep := step_cases draft lines.length raw
  generalize draft.step lines.length raw = next at hstep ⊢
  cases hstep with
  | blank hblank => exact hkept (.inl (by rw [scriptImports, List.map_singleton, hblank]; rfl))
  | hoisted hblank hin himport =>
    have himports : scriptImports [raw] = [Text.trim raw] := by simp [scriptImports, himport]
    rw [if_pos (hscoped.any_isOpen_of_inScript hblank hin), himports, eraseDups_concat, ← hentries]
    rfl
  | captured _ himport => exact hkept (.inl (by simp [scriptImports, himport]))
  | dropped hblank hout => exact hkept (.inr (hscoped.any_isOpen_of_not_inScript hshaped hblank hout))
  | @attached hblank hout node faults log =>
    exact (imports_attach ((draft.closedBy raw).reporting faults log) node lines.length raw).trans
      (hkept (.inr (hscoped.any_isOpen_of_not_inScript hshaped hblank hout)))

/-- A line opens one script at most, and none while another one is open. -/
theorem Scoped.scripts_step (hshaped : draft.Shaped) (raw : Text) :
    ∃ opened? : Option Mark, (draft.step lines.length raw).scripts = draft.scripts ++ opened?.toList ∧
      ∀ mark ∈ opened?, mark.line? = some (lines.length : Int) ∧
        draft.scripts.any (Mark.isOpen (lines ++ [raw])) = false := by
  have hnone {next : Draft} (hmarks : next.marks = draft.marks) : ∃ opened? : Option Mark,
      next.scripts = draft.scripts ++ opened?.toList ∧
        ∀ mark ∈ opened?, mark.line? = some (lines.length : Int) ∧
          draft.scripts.any (Mark.isOpen (lines ++ [raw])) = false :=
    ⟨none, by simp [scripts, hmarks], by simp⟩
  by_cases hblank : Text.trim raw = []
  · exact hnone (by simp [Draft.step, hblank])
  obtain ⟨added, opened?, hopens⟩ := hshaped.opens_step lines.length hblank
  have hstep := step_cases draft lines.length raw
  generalize draft.step lines.length raw = next at hopens hstep ⊢
  cases hstep with
  | blank => exact hnone rfl
  | hoisted => exact hnone (marks_hoisted draft _ _ _ raw)
  | captured _ _ hframes hcontent => exact hnone (hshaped.marks_withLine hframes hcontent _ _)
  | dropped => exact hnone (marks_reporting draft _ _ raw)
  | attached _ hout =>
    have hadded : added.filter (fun mark => mark.content.isScript) =
        (opened?.filter fun mark => mark.content.isScript).toList := by
      rw [Option.toList_filter, ← hopens.containers, List.filter_filter]
      refine List.filter_congr fun mark _ => ?_
      cases mark.content <;> rfl
    refine ⟨_, by rw [scripts, hopens.marks, List.filter_append, hadded, scripts], fun mark hmark => ?_⟩
    obtain ⟨rfl, _⟩ := Option.filter_eq_some_iff.mp hmark
    refine ⟨?_, hscoped.any_isOpen_of_not_inScript hshaped hblank hout⟩
    rw [Mark.line?, hopens.start mark hopens.mem_added]
    rfl

end Scoped

/-- The blocks of the scripts follow each other, and the imports are those of the blocks. -/
structure Hoisted (lines : List Text) (draft : Draft) : Prop where
  apart : draft.scripts.Pairwise (BlockBefore lines)
  imports : draft.imports = (draft.scripts.flatMap fun mark => scriptImports (mark.block lines)).eraseDups

theorem empty_hoisted (diagnostics : List Diagnostic) (first : Text) : Hoisted [first] { empty with diagnostics } :=
  ⟨.nil, rfl⟩

theorem Hoisted.step {lines : List Text} {draft : Draft} (hhoisted : Hoisted lines draft)
    (hscoped : Scoped lines draft) (hshaped : draft.Shaped) (raw : Text) :
    Hoisted (lines ++ [raw]) (draft.step lines.length raw) := by
  obtain ⟨opened?, hscripts, hopened⟩ := hscoped.scripts_step hshaped raw
  refine ⟨?_, ?_⟩
  · rw [hscripts, List.pairwise_append]
    refine ⟨hhoisted.apart.imp_of_mem ?_, by cases opened? <;> simp, ?_⟩
    · intro mark other hmark hother hbefore
      rw [BlockBefore, hscoped.block_concat hmark, hscoped.not_isOpen_of_blockBefore hmark hother hbefore raw]
      exact hbefore
    · -- the line of the new script closed every earlier one
      intro mark hmark other hother k hk l hl
      obtain ⟨hline, hclosed⟩ := hopened other (by simpa using hother)
      have hshut : mark.isOpen (lines ++ [raw]) = false := by simpa using List.any_eq_false.mp hclosed mark hmark
      obtain ⟨hmark, hscript⟩ := mem_scripts.mp hmark
      obtain ⟨start, opening, hopening, hstart⟩ := hscoped.start_concat raw mark hmark
      rw [Mark.isOpen_eq_false_iff (Content.isContainer_of_isScript hscript) hstart
        (List.getElem?_eq_some_iff.mp hopening).1, List.length_append, List.length_singleton] at hshut
      simp only [Mark.line?, hstart, Option.map_some, Option.mem_def, Option.some.injEq] at hk
      rw [hline, Option.mem_some_iff] at hl
      omega
  · have hnew : (opened?.toList.flatMap fun mark => scriptImports (mark.block (lines ++ [raw]))) = [] := by
      refine List.flatMap_eq_nil_iff.mpr fun mark hmark => ?_
      obtain ⟨⟨line, column⟩, hstart, rfl⟩ := Option.map_eq_some_iff.mp (hopened mark (by simpa using hmark)).1
      simp [Mark.block, Mark.below, hstart, scriptImports]
    rw [hscoped.imports_step hshaped hhoisted.imports, hscripts, List.flatMap_append, hnew, List.append_nil,
      hscoped.flatMap_scriptImports (fun _ hmark => hmark) hhoisted.apart]

end Draft

namespace Document

theorem draft_hoisted (first : Text) (body : List Text) : (draft first body).Hoisted (first :: body) := by
  induction body using List.reverseRecOn with
  | nil => exact Draft.empty_hoisted _ first
  | append_singleton body raw ih =>
    rw [draft_concat]
    exact ih.step (draft_scoped first body) (draft_shaped first body) raw

/-- A script that was opened on line `k`. Its lines are those of the block of this line that are neither blank nor
imports, all cut at the indent of the first one. -/
structure Captured (lines : List Text) (k : Nat) (script : Node) : Prop where
  line : script.mark.line? = some (k : Int)
  body : ∃ signature body, script.content = .script signature body ∧
    List.Forall₂ (CutAt ((scriptMargin? (blockAt lines k)).getD 0)) (scriptLines (blockAt lines k)) body

/-- The body of a script was cut from the lines that go into it, one by one. -/
theorem forall₂_scriptBody (block : List Text) :
    List.Forall₂ (CutAt ((scriptMargin? block).getD 0)) (scriptLines block) (scriptBody block) := by
  rw [scriptBody, List.forall₂_map_right_iff, List.forall₂_same]
  intro raw hraw
  have hkept := (List.mem_filter.mp hraw).2
  exact cutAt_scriptLine _ (by simp_all)

/-- The line on which a script was opened. -/
def scriptStart (script : Node) : Nat :=
  (script.mark.line?.getD 0).toNat

section Scripts

variable {first : Text} {body : List Text}

theorem start_of_script {script : Node} (hscript : script ∈ Node.scripts (draft first body).forest) :
    script.mark.start? = some ((scriptStart script : Int), indentAt (first :: body) (scriptStart script)) := by
  obtain ⟨k, _, hstart⟩ := start_eq_indentAt [] (head_mem_marks (List.mem_of_mem_filter hscript))
  rw [List.append_nil] at hstart
  have hmark : script.mark.start? = some ((k : Int), indentAt (first :: body) k) := hstart
  have hline : scriptStart script = k := by simp [scriptStart, Mark.line?, hmark]
  rw [hmark, hline]

theorem block_of_script {script : Node} (hscript : script ∈ Node.scripts (draft first body).forest) :
    script.mark.block (first :: body) = blockAt (first :: body) (scriptStart script) := by
  have hkind : script.mark.content.isScript := (List.mem_filter.mp hscript).2
  exact Mark.block_eq_blockAt hkind (start_of_script hscript)

theorem captured_of_script {script : Node} (hscript : script ∈ Node.scripts (draft first body).forest) :
    Captured (first :: body) (scriptStart script) script := by
  obtain ⟨hmem, hkind⟩ := List.mem_filter.mp hscript
  obtain ⟨signature, lines, hcontent⟩ := Content.exists_of_isScript hkind
  have hlines : lines = scriptBody (blockAt (first :: body) (scriptStart script)) := by
    rw [← block_of_script hscript]
    refine (draft_scripted first body).body script.mark ?_ signature lines hcontent
    rw [← Draft.places_forest, Node.map_mark_placesForest]
    exact List.mem_map_of_mem hmem
  refine ⟨?_, signature, lines, hcontent, hlines ▸ forall₂_scriptBody _⟩
  rw [Mark.line?, start_of_script hscript]
  rfl

variable (first body)

/-- The block of a script ends before the line of the next one. -/
theorem pairwise_scriptStart : ((Node.scripts (draft first body).forest).map scriptStart).Pairwise
    fun k l => k + (blockAt (first :: body) k).length < l := by
  have hapart := (draft_hoisted first body).apart
  rw [Draft.scripts_eq_map_head, List.pairwise_map] at hapart
  refine List.pairwise_map.mpr (hapart.imp_of_mem fun {script other} hscript hother hbefore => ?_)
  have hlt := hbefore _ (captured_of_script hscript).line _ (captured_of_script hother).line
  rw [Mark.block_head, block_of_script hscript] at hlt
  omega

theorem imports_eq_flatMap_blockAt : (draft first body).imports =
    (((Node.scripts (draft first body).forest).map scriptStart).flatMap
      fun k => scriptImports (blockAt (first :: body) k)).eraseDups := by
  rw [(draft_hoisted first body).imports, Draft.scripts_eq_map_head, List.flatMap_map, List.flatMap_map]
  congr 1
  refine List.flatMap_congr fun script hscript => ?_
  rw [Mark.block_head, block_of_script hscript]

end Scripts

/-- Every script of a document holds the lines of its block, cut at a common left margin, whatever they look like.
The blocks of two scripts never overlap, and the imports of the document are the import lines of all blocks, in
order and each once. -/
theorem scripts_captured (t : Text) :
    ∃ starts : List Nat, List.Forall₂ (Captured (Text.lines t)) starts (Node.scripts (ofText t).nodes) ∧
      starts.Pairwise (fun k l => k + (blockAt (Text.lines t) k).length < l) ∧
      (ofText t).imports = (starts.flatMap fun k => scriptImports (blockAt (Text.lines t) k)).eraseDups := by
  obtain ⟨first, body, hlines⟩ := exists_lines t
  by_cases hfirst : Text.trim first = []
  · -- without a signature line nothing is read
    refine ⟨[], ?_, .nil, by simp [ofText, read, hlines, ofLines, hfirst]⟩
    rw [nodes_of_blank_signature hlines hfirst]
    exact .nil
  · rw [ofText_of_lines hlines hfirst, hlines]
    refine ⟨(Node.scripts (draft first body).forest).map scriptStart, ?_, pairwise_scriptStart first body,
      imports_eq_flatMap_blockAt first body⟩
    rw [List.forall₂_map_left_iff, List.forall₂_same]
    exact fun script hscript => captured_of_script hscript

end Document

end ViewMarkup
