import ViewMarkup.Proofs.Document.Nesting

namespace ViewMarkup

/-- Every fault of a signature is on its line. -/
theorem Signature.line_of_mem_read {source : Text} {line : Int} {fault : Diagnostic}
    (hfault : fault ∈ (Signature.read source line).2) : fault.range.start.line = line := by
  unfold Signature.read at hfault
  dsimp only at hfault
  split at hfault
  · obtain rfl := List.mem_singleton.mp hfault
    rfl
  · obtain ⟨result, hresult, hfault⟩ := List.mem_filterMap.mp hfault
    obtain ⟨entry, _, rfl⟩ := List.mem_map.mp hresult
    unfold Signature.readEntry at hfault
    split at hfault
    · rename_i heq
      split at heq
      · cases heq
      · cases heq
        cases hfault
        rfl
    · cases hfault

theorem Content.role?_head (content : Content) : content.head.role? = content.role? := by
  cases content <;> rfl

/-- Whether two nodes belong together depends on what they are when their line is read. -/
theorem Node.BuiltIn.of_head {node child node' child' : Node} (hbuiltIn : node.BuiltIn child)
    (hnode : node'.content.head = node.content.head) (hchild : child'.content.head = child.content.head) :
    node'.BuiltIn child' := by
  rwa [Node.BuiltIn, ← Content.isList_head, ← Content.isItem_head, ← Content.role?_head node'.content,
    ← Content.role?_head child'.content, hnode, hchild, Content.isList_head, Content.isItem_head,
    Content.role?_head, Content.role?_head]

namespace Document

/-- The nodes that start on a line. -/
def nodesOn (document : Document) (l : Nat) : List Node :=
  (Node.preorderForest document.nodes).filter fun node => node.mark.line? == some (l : Int)

/-- The faults that are reported on a line. -/
def faultsOn (document : Document) (l : Nat) : List Diagnostic :=
  document.diagnostics.filter fun fault => fault.range.start.line == (l : Int)

/-- What can become of a line. -/
inductive Fate where
  | blank
  | scripted
  | dropped
  | attached
  deriving DecidableEq, Repr

/-- The nodes and faults of a line with the given fate. A line that gives a node may give one built-in
child with it, and nothing else. -/
def HasFate (lines : List Text) (document : Document) (l : Nat) : Fate → Prop
  | .blank => Text.trim (lines.getD l []) = [] ∧ document.nodesOn l = [] ∧ document.faultsOn l = []
  | .scripted => Text.trim (lines.getD l []) ≠ [] ∧ document.nodesOn l = [] ∧ document.faultsOn l = [] ∧
      ∃ k script signature body, Encloses lines document.nodes l k script ∧
        script.content = .script signature body ∧
        if isImport (Text.trim (lines.getD l [])) then Text.trim (lines.getD l []) ∈ document.imports
        else body[(scriptLines (between lines k l)).length]? = some
          (scriptLine ((scriptMargin? (between lines k (l + 1))).getD 0) (lines.getD l []))
  | .dropped => document.nodesOn l = [] ∧ ∃ inList fault log,
      SourceLine.read? ⟨lines.getD l [], l, indentAt lines l, inList⟩ = some ⟨none, [fault], log⟩ ∧
        document.faultsOn l = [fault]
  | .attached => ∃ inList classified faults log,
      SourceLine.read? ⟨lines.getD l [], l, indentAt lines l, inList⟩ =
          some ⟨some classified, faults, log⟩ ∧
        document.faultsOn l = faults ∧ ∃ node, node.content.head = classified.content ∧
          (document.nodesOn l = [node] ∨
            ∃ child ∈ node.children, node.BuiltIn child ∧ document.nodesOn l = [node, child])

/-- The fate that the nodes and faults of a line allow. -/
def fateOf (lines : List Text) (document : Document) (l : Nat) : Fate :=
  if document.nodesOn l ≠ [] then .attached
  else if document.faultsOn l ≠ [] then .dropped
  else if Text.trim (lines.getD l []) = [] then .blank
  else .scripted

theorem HasFate.eq_fateOf {lines : List Text} {document : Document} {l : Nat} {fate : Fate}
    (hfate : HasFate lines document l fate) : fate = fateOf lines document l := by
  cases fate with
  | blank =>
    obtain ⟨hblank, hnodes, hfaults⟩ := hfate
    rw [fateOf, if_neg (not_not.mpr hnodes), if_neg (not_not.mpr hfaults), if_pos hblank]
  | scripted =>
    obtain ⟨hblank, hnodes, hfaults, _⟩ := hfate
    rw [fateOf, if_neg (not_not.mpr hnodes), if_neg (not_not.mpr hfaults), if_neg hblank]
  | dropped =>
    obtain ⟨hnodes, _, fault, _, _, hfaults⟩ := hfate
    simp [fateOf, hnodes, hfaults]
  | attached =>
    obtain ⟨_, _, _, _, _, _, node, _, hnodes | ⟨child, _, _, hnodes⟩⟩ := hfate
    · simp [fateOf, hnodes]
    · simp [fateOf, hnodes]

theorem line_lt_of_mem_diagnostics {first : Text} {body : List Text} {fault : Diagnostic}
    (hfault : fault ∈ (draft first body).diagnostics) :
    fault.range.start.line < (first :: body).length := by
  obtain ⟨faults, hlines, hdiagnostics⟩ :=
    ((Draft.empty_shaped (Signature.read first 0).2).grows_run 1 body).diagnostics
  rw [draft, hdiagnostics] at hfault
  rw [List.length_cons]
  push_cast
  obtain hsignature | hbody := List.mem_append.mp hfault
  · have hline := Signature.line_of_mem_read hsignature
    omega
  · have hlt := (hlines fault hbody).2
    omega

/-- What is on a line, if the line added it after what was before and nothing of it came later. -/
theorem filter_added_eq {α : Type} {isOn : α → Bool} {before added after : List α}
    (hbefore : ∀ x ∈ before, ¬ isOn x) (hadded : ∀ x ∈ added, isOn x) (hafter : ∀ x ∈ after, ¬ isOn x) :
    (before ++ added ++ after).filter isOn = added := by
  rw [List.filter_append, List.filter_append, List.filter_eq_nil_iff.mpr hbefore, List.filter_eq_self.mpr hadded,
    List.filter_eq_nil_iff.mpr hafter, List.nil_append, List.append_nil]

section Line

variable {first raw : Text} {earlier later : List Text} {document : Document}

/-- The marks on a line are those that the line added. -/
theorem filter_marks_eq (added : List Mark)
    (hmarks : (draft first (earlier ++ [raw])).marks = (draft first earlier).marks ++ added)
    (hadded : ∀ mark ∈ added, mark.line? = some ((first :: earlier).length : Int)) :
    (draft first (earlier ++ raw :: later)).marks.filter
      (fun mark => mark.line? == some ((first :: earlier).length : Int)) = added := by
  obtain ⟨rest, hrest, hplaces⟩ := (draft_grows first (earlier ++ [raw]) later).places
  rw [List.append_assoc, List.singleton_append] at hplaces
  rw [Draft.marks_eq_map_head, hplaces, List.map_append, ← Draft.marks_eq_map_head, hmarks]
  apply filter_added_eq
  · intro mark hmark
    obtain ⟨k, hk, hstart⟩ := start_eq_indentAt [] hmark
    simp only [Mark.line?, hstart, Option.map_some, beq_iff_eq, Option.some.injEq]
    omega
  · intro mark hmark
    simp [hadded mark hmark]
  · intro mark hmark
    obtain ⟨place, hplace, rfl⟩ := List.mem_map.mp hmark
    obtain ⟨line, hline, hge, _⟩ := hrest.line place hplace
    simp only [Option.mem_def.mp hline, beq_iff_eq, Option.some.injEq]
    simp at hge ⊢
    omega

/-- The faults on a line are those that the line reported. -/
theorem filter_faults_eq {faults : List Diagnostic}
    (hdiagnostics : (draft first (earlier ++ [raw])).diagnostics = (draft first earlier).diagnostics ++ faults)
    (hfaults : ∀ fault ∈ faults, fault.range.start.line = (first :: earlier).length) :
    (draft first (earlier ++ raw :: later)).diagnostics.filter
      (fun fault => fault.range.start.line == ((first :: earlier).length : Int)) = faults := by
  obtain ⟨rest, hrest, happend⟩ := (draft_grows first (earlier ++ [raw]) later).diagnostics
  rw [List.append_assoc, List.singleton_append] at happend
  rw [happend, hdiagnostics]
  apply filter_added_eq
  · intro fault hfault
    have hlt := line_lt_of_mem_diagnostics hfault
    simp only [beq_iff_eq]
    omega
  · intro fault hfault
    simp [hfaults fault hfault]
  · intro fault hfault
    have hge := (hrest fault hfault).1
    simp at hge ⊢
    omega

theorem map_nodesOn (hnodes : document.nodes = (draft first (earlier ++ later)).forest) (l : Nat) :
    (document.nodesOn l).map (fun node => node.mark.head) =
      (draft first (earlier ++ later)).marks.filter fun mark => mark.line? == some (l : Int) := by
  rw [Draft.marks_eq_preorder, List.filter_map, nodesOn, hnodes]
  rfl

theorem nodesOn_eq_nil (hnodes : document.nodes = (draft first (earlier ++ raw :: later)).forest)
    (hmarks : (draft first (earlier ++ [raw])).marks = (draft first earlier).marks) :
    document.nodesOn (first :: earlier).length = [] := by
  have hmap := map_nodesOn hnodes (first :: earlier).length
  rw [filter_marks_eq [] (by rw [hmarks, List.append_nil]) (by simp)] at hmap
  exact List.map_eq_nil_iff.mp hmap

theorem faultsOn_eq (hdocument : document.diagnostics = (draft first (earlier ++ raw :: later)).diagnostics)
    {faults : List Diagnostic}
    (hdiagnostics : (draft first (earlier ++ [raw])).diagnostics = (draft first earlier).diagnostics ++ faults)
    (hfaults : ∀ fault ∈ faults, fault.range.start.line = (first :: earlier).length) :
    document.faultsOn (first :: earlier).length = faults := by
  rw [faultsOn, hdocument]
  exact filter_faults_eq hdiagnostics hfaults

/-- A node that a line gives stands alone on its line, or with its built-in child. -/
theorem exists_nodesOn (hnodes : document.nodes = (draft first (earlier ++ raw :: later)).forest)
    {placed : Node} (hspan : placed.span? = some (lineSpan (first :: earlier).length raw))
    (hlength : placed.children.length ≤ 1)
    (hbuiltIn : ∀ child ∈ placed.children, placed.BuiltIn child ∧ child.children = [] ∧
      child.span? = some (lineSpan (first :: earlier).length raw))
    {holder? : Option Mark}
    (hplaces : (draft first (earlier ++ [raw])).places = (draft first earlier).places ++
      ⟨holder?, placed.mark⟩ :: placed.children.map fun child => ⟨some placed.mark, child.mark⟩) :
    ∃ node, node.mark.head = placed.mark.head ∧
      (document.nodesOn (first :: earlier).length = [node] ∨ ∃ child ∈ node.children,
        node.BuiltIn child ∧ document.nodesOn (first :: earlier).length = [node, child]) := by
  have hmarks : (draft first (earlier ++ [raw])).marks = (draft first earlier).marks ++
      placed.mark.head :: placed.children.map fun child => child.mark.head := by
    rw [Draft.marks, hplaces, List.map_append, Draft.marks]
    simp
  have hlines : ∀ mark ∈ placed.mark.head :: placed.children.map fun child => child.mark.head,
      mark.line? = some ((first :: earlier).length : Int) := by
    refine List.forall_mem_cons.mpr ⟨?_, fun mark hmark => ?_⟩
    · exact congrArg (Option.map Prod.fst) (Node.start?_head_mark hspan)
    · obtain ⟨child, hchild, rfl⟩ := List.mem_map.mp hmark
      exact congrArg (Option.map Prod.fst) (Node.start?_head_mark (hbuiltIn child hchild).2.2)
  have hmap := map_nodesOn hnodes (first :: earlier).length
  rw [filter_marks_eq _ hmarks hlines] at hmap
  obtain hnone | hone := Nat.le_one_iff_eq_zero_or_eq_one.mp hlength
  · rw [List.length_eq_zero_iff.mp hnone] at hmap
    obtain ⟨node, hnode, hmark⟩ := List.map_eq_singleton_iff.mp hmap
    exact ⟨node, hmark, .inl hnode⟩
  · obtain ⟨builtIn, hchildren⟩ := List.length_eq_one_iff.mp hone
    rw [hchildren] at hmap hplaces
    obtain ⟨node, rest, hnode, hmark, hrest⟩ := List.map_eq_cons_iff.mp hmap
    obtain ⟨child, rfl, hmark'⟩ := List.map_eq_singleton_iff.mp hrest
    have hmem : ∀ other ∈ [node, child],
        other ∈ Node.preorderForest (draft first (earlier ++ raw :: later)).forest := by
      rw [← hnode, ← hnodes]
      exact fun other hother => List.mem_of_mem_filter hother
    -- the child is the one below the node, since no other node has its mark
    have hplace := (draft_grows first (earlier ++ [raw]) later).mem_places
      (List.mem_map_of_mem (f := Place.head) (a := ⟨some placed.mark, builtIn.mark⟩) (by simp [hplaces]))
    rw [List.append_assoc, List.singleton_append, Place.head, Option.map_some, ← hmark] at hplace
    obtain ⟨below, hbelow, hsame⟩ := exists_child_of_place (hmem node (by simp)) hplace
    obtain rfl := eq_of_head_mark (Node.child_mem_preorderForest (hmem node (by simp)) hbelow)
      (hmem child (by simp)) (hsame.trans hmark'.symm)
    have hpair := (hbuiltIn builtIn (by simp [hchildren])).1
    exact ⟨node, hmark, .inr ⟨below, hbelow, hpair.of_head (congrArg Mark.content hmark)
      (congrArg Mark.content hmark'), hnode⟩⟩

/-- A line below a script is inside the script that is open last. -/
theorem exists_script (hnodes : document.nodes = (draft first (earlier ++ raw :: later)).forest)
    (hblank : Text.trim raw ≠ []) (hscript : ((draft first earlier).closedBy raw).inScript) :
    ∃ k script signature body, Encloses (first :: (earlier ++ raw :: later)) document.nodes
      (first :: earlier).length k script ∧ script.content = .script signature body := by
  obtain ⟨parent?, hinnermost, htop⟩ := exists_innermost first earlier later hblank
  rw [isScript_of_top htop] at hscript
  obtain _ | ⟨k, script⟩ := parent?
  · cases hscript
  obtain ⟨signature, body, hbody⟩ := Content.exists_of_isScript hscript
  exact ⟨k, script, signature, body, hnodes ▸ hinnermost.1, hbody⟩

/-- Every line has a fate. -/
theorem exists_fate (hnodes : document.nodes = (draft first (earlier ++ raw :: later)).forest)
    (hfaults : document.diagnostics = (draft first (earlier ++ raw :: later)).diagnostics)
    (himports : document.imports = (draft first (earlier ++ raw :: later)).imports) :
    ∃ fate, HasFate (first :: (earlier ++ raw :: later)) document (first :: earlier).length fate := by
  have hraw := getD_line first raw earlier later
  have hsource : ((draft first earlier).closedBy raw).sourceLine (first :: earlier).length raw =
      ⟨(first :: (earlier ++ raw :: later)).getD (first :: earlier).length [], (first :: earlier).length,
        indentAt (first :: (earlier ++ raw :: later)) (first :: earlier).length,
        (((draft first earlier).closedBy raw).sourceLine (first :: earlier).length raw).inList⟩ := by
    rw [indentAt, hraw]
    rfl
  have hgrows := draft_grows first (earlier ++ [raw]) later
  rw [List.append_assoc, List.singleton_append] at hgrows
  have hstep := Draft.step_cases (draft first earlier) (first :: earlier).length raw
  rw [← draft_concat] at hstep
  generalize hnext : draft first (earlier ++ [raw]) = next at hstep
  cases hstep with
  | blank hblank =>
    refine ⟨.blank, by rw [hraw, hblank], nodesOn_eq_nil hnodes (by rw [hnext]), faultsOn_eq hfaults ?_ (by simp)⟩
    rw [hnext, List.append_nil]
  | hoisted hblank hscript himport =>
    obtain ⟨k, script, signature, body, hencloses, hcontent⟩ := exists_script hnodes hblank hscript
    have hmem : Text.trim raw ∈ document.imports := by
      rw [himports]
      exact hgrows.imports.subset (hnext ▸ Draft.mem_imports_hoist _ _)
    refine ⟨.scripted, by rwa [hraw], nodesOn_eq_nil hnodes ?_, faultsOn_eq hfaults ?_ (by simp), k, script,
      signature, body, hencloses, hcontent, ?_⟩
    · rw [hnext, Draft.marks_hoisted]
    · rw [hnext, List.append_nil]
      rfl
    · rwa [hraw, if_pos himport]
  | captured hblank himport hframes hscript =>
    have hin : ((draft first earlier).closedBy raw).inScript := by
      simp [Draft.inScript, hframes, hscript, Content.isScript]
    obtain ⟨k, script, signature, body, hencloses, hcontent⟩ := exists_script hnodes hblank hin
    refine ⟨.scripted, by rwa [hraw], nodesOn_eq_nil hnodes ?_, faultsOn_eq hfaults ?_ (by simp), k, script,
      signature, body, hencloses, hcontent, ?_⟩
    · rw [hnext, (draft_shaped first earlier).marks_withLine hframes hscript]
    · rw [hnext, List.append_nil]
      rfl
    · rw [hraw, if_neg (by simp [himport]), between_line, between_line_succ hencloses.before]
      exact getElem?_body_of_encloses hblank himport (hnodes ▸ hencloses) hcontent
  | @dropped hblank hscript fault log hread hline =>
    rw [hsource] at hread
    refine ⟨.dropped, nodesOn_eq_nil hnodes (by rw [hnext, Draft.marks_reporting]), _, fault, log, hread,
      faultsOn_eq hfaults ?_ (by simpa using hline)⟩
    rw [hnext]
    rfl
  | @attached hblank hscript classified faults log hread hfresh hline =>
    obtain ⟨hlength, hadded⟩ := hfresh.places_place
      (Draft.holder? ((draft first earlier).closedBy raw).frames
        (classified.place (lineSpan (first :: earlier).length raw))) (lineSpan (first :: earlier).length raw)
    obtain ⟨node, hmark, hon⟩ := exists_nodesOn hnodes (Node.span?_place _ classified) hlength
      (hfresh.builtIn _) (by rw [hnext, Draft.places_attached, hadded])
    rw [hsource] at hread
    refine ⟨.attached, _, classified, faults, log, hread, faultsOn_eq hfaults ?_ hline, node,
      hfresh.content_of_mark hmark, hon⟩
    rw [hnext]
    exact Draft.diagnostics_attach (((draft first earlier).closedBy raw).reporting faults log) classified _ raw

end Line

/-- The nodes of a document are in the order of their lines. -/
theorem exists_starts (first : Text) (body : List Text) :
    ∃ starts : List Int, (Node.preorderForest (draft first body).forest).map (fun node => node.mark.line?) =
      starts.map some ∧ starts.Pairwise (· ≤ ·) := by
  have hline : ∀ node ∈ Node.preorderForest (draft first body).forest,
      node.mark.line? = some (node.mark.line?.getD 0) := by
    intro node hnode
    obtain ⟨k, _, hstart⟩ := start_eq_indentAt [] (head_mem_marks hnode)
    rw [← Mark.line?_head, Mark.line?, hstart]
    rfl
  have hsorted := draft_marks_sorted first body
  rw [Draft.marks_eq_preorder, List.pairwise_map] at hsorted
  refine ⟨(Node.preorderForest (draft first body).forest).map fun node => node.mark.line?.getD 0, ?_, ?_⟩
  · rw [List.map_map]
    exact List.map_congr_left hline
  · rw [List.pairwise_map]
    refine hsorted.imp_of_mem fun {node other} hnode hother hle => ?_
    exact hle _ (hline node hnode) _ (hline other hother)

/-- The lines of a document are in exactly one place each. A line below the signature line is blank, or
goes into a script, or is dropped with one fault, or gives one node and perhaps its built-in child; a
script has no other lines than these; and the nodes of the document are in the order of their lines. -/
theorem lines_accounted {t first : Text} {body : List Text} (hlines : Text.lines t = first :: body)
    (hfirst : Text.trim first ≠ []) :
    (∀ l, 0 < l → l < (first :: body).length → ∃! fate, HasFate (first :: body) (ofText t) l fate) ∧
    (∀ script ∈ Node.preorderForest (ofText t).nodes, ∀ signature lines,
      script.content = .script signature lines → lines = scriptBody (script.mark.block (first :: body))) ∧
    ∃ starts : List Int, (Node.preorderForest (ofText t).nodes).map (fun node => node.mark.line?) =
      starts.map some ∧ starts.Pairwise (· ≤ ·) := by
  have hdocument := ofText_of_lines hlines hfirst
  refine ⟨fun l hpos hl => ?_, fun script hscript signature lines hcontent => ?_, ?_⟩
  · obtain ⟨earlier, raw, later, rfl, rfl⟩ := exists_split hpos hl
    obtain ⟨fate, hfate⟩ := exists_fate (congrArg nodes hdocument) (congrArg diagnostics hdocument)
      (congrArg imports hdocument)
    exact ⟨fate, hfate, fun other hother => hother.eq_fateOf.trans hfate.eq_fateOf.symm⟩
  · refine (draft_scripted first body).body script.mark ?_ signature lines hcontent
    rw [← Draft.places_forest, Node.map_mark_placesForest]
    rw [hdocument] at hscript
    exact List.mem_map_of_mem hscript
  · rw [hdocument]
    exact exists_starts first body

theorem lines_accounted_script :
    ∃! fate, HasFate ["Page()", ":js", "  run()"] (ofText "Page()\n:js\n  run()") 2 fate :=
  (lines_accounted rfl (by decide)).1 2 (by decide) (by decide)

end Document

end ViewMarkup
