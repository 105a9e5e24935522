import Mathlib.Order.Bounds.Basic
import ViewMarkup.Proofs.Document.Account
import ViewMarkup.Proofs.Document.Stamps

namespace ViewMarkup

/-- From the indent of line `k` to the end of line `m`. -/
def spanAt (lines : List Text) (k m : Nat) : Span :=
  ⟨k, indentAt lines k, m, (lines.getD m []).length⟩

namespace Document

/-- A line that became a node or went into a script. -/
def Taken (lines : List Text) (document : Document) (l : Nat) : Prop :=
  HasFate lines document l .attached ∨ HasFate lines document l .scripted

/-- The lines below its own to which a node is stretched. -/
inductive Reaches (lines : List Text) (document : Document) (node : Node) (l : Nat) : Prop where
  | inside {k : Nat} (hencloses : Encloses lines document.nodes l k node) (htaken : Taken lines document l)
  | below (hcontainer : node.content.isContainer = false) {child : Node} (hchild : child ∈ node.children)
      (hline : child.mark.line? = some (l : Int))

/-- A node that starts on line `k` and ends with line `m`, the last one that it reaches. -/
structure Extends (lines : List Text) (document : Document) (node : Node) (k m : Nat) : Prop where
  line : node.mark.line? = some (k : Int)
  span : node.span? = some (spanAt lines k m)
  last : IsGreatest {l | l = k ∨ Reaches lines document node l} m

/-- What a mark reaches is what its node reaches. -/
def MarkReaches (lines : List Text) (document : Document) (mark : Mark) (l : Nat) : Prop :=
  ∃ node ∈ Node.preorderForest document.nodes, node.mark.head = mark ∧ Reaches lines document node l

end Document

/-- The span of a node after `stop` lines: the last line that the node reaches among them is the end. -/
def Stamp.Ends (lines : List Text) (reaches : Nat → Prop) (stop : Nat) (stamp : Stamp) : Prop :=
  ∃ k m : Nat, k < stop ∧ stamp.mark.line? = some (k : Int) ∧
    stamp.span? = some (spanAt lines k m) ∧ IsGreatest {l | l = k ∨ l < stop ∧ reaches l} m

/-- One more line, which stretches exactly the nodes that reach it. -/
theorem Stamp.Ends.follow {lines : List Text} {reaches : Mark → Nat → Prop} {stop : Nat} {raw : Text}
    {stamps : List Stamp} {touched : Mark → Prop} (hraw : lines.getD stop [] = raw)
    (hends : ∀ stamp ∈ stamps, stamp.Ends lines (reaches stamp.mark) stop)
    (htouched : ∀ stamp ∈ stamps, touched stamp.mark ↔ reaches stamp.mark stop) {stamp : Stamp}
    (hfollows : Draft.Follows stamps stop raw touched stamp) :
    stamp.Ends lines (reaches stamp.mark) (stop + 1) := by
  cases hfollows with
  | kept hold hnot =>
    obtain ⟨k, m, hlt, hline, hspan, hmem, hupper⟩ := hends _ hold
    refine ⟨k, m, by omega, hline, hspan, ?_, ?_⟩
    · obtain hsame | ⟨hm, hreaches⟩ := hmem
      · exact .inl hsame
      · exact .inr ⟨by omega, hreaches⟩
    · rintro l (hsame | ⟨hl, hreaches⟩)
      · exact hupper (.inl hsame)
      · have hne : l ≠ stop := by
          rintro rfl
          exact hnot ((htouched _ hold).mpr hreaches)
        exact hupper (.inr ⟨by omega, hreaches⟩)
  | @stretched stamp hold htouch =>
    obtain ⟨k, m, hlt, hline, hspan, _⟩ := hends stamp hold
    refine ⟨k, stop, by omega, hline, ?_, .inr ⟨by omega, (htouched stamp hold).mp htouch⟩, ?_⟩
    · rw [Stamp.extendTo, hspan, ← hraw]
      rfl
    · rintro l (hsame | ⟨hl, _⟩) <;> omega
  | @new mark hstart =>
    refine ⟨stop, stop, by omega, ?_, ?_, .inl rfl, ?_⟩
    · rw [Mark.line?, hstart]
      rfl
    · rw [spanAt, indentAt, hraw]
      rfl
    · rintro l (hsame | ⟨hl, _⟩) <;> omega

namespace Document

section Line

variable {first raw : Text} {earlier later : List Text} {document : Document}

theorem taken_iff (hnodes : document.nodes = (draft first (earlier ++ raw :: later)).forest)
    (hfaults : document.diagnostics = (draft first (earlier ++ raw :: later)).diagnostics)
    (himports : document.imports = (draft first (earlier ++ raw :: later)).imports) :
    Taken (first :: (earlier ++ raw :: later)) document (first :: earlier).length ↔
      document.nodesOn (first :: earlier).length ≠ [] ∨
        Text.trim raw ≠ [] ∧ document.faultsOn (first :: earlier).length = [] := by
  have hraw := getD_line first raw earlier later
  constructor
  · rintro (hattached | ⟨hblank, _, hnone, _⟩)
    · left
      obtain ⟨_, _, _, _, _, _, node, _, hon | ⟨child, _, _, hon⟩⟩ := hattached
      · rw [hon]
        exact List.cons_ne_nil _ _
      · rw [hon]
        exact List.cons_ne_nil _ _
    · rw [hraw] at hblank
      exact .inr ⟨hblank, hnone⟩
  · intro hquiet
    obtain ⟨fate, hfate⟩ := exists_fate hnodes hfaults himports
    have hsame := hfate.eq_fateOf
    rw [fateOf, hraw] at hsame
    by_cases hon : document.nodesOn (first :: earlier).length = []
    · obtain ⟨hblank, hnone⟩ := hquiet.resolve_left (not_not.mpr hon)
      rw [if_neg (not_not.mpr hon), if_neg (not_not.mpr hnone), if_neg hblank] at hsame
      exact .inr (hsame ▸ hfate)
    · rw [if_pos hon] at hsame
      exact .inl (hsame ▸ hfate)

/-- The containers that a line leaves open, by the lines alone. -/
theorem mem_openStamps_iff (hblank : Text.trim raw ≠ []) {mark : Mark} :
    mark ∈ ((draft first earlier).closedBy raw).openStamps.map Stamp.mark ↔
      mark ∈ (draft first earlier).marks.filter (Mark.isOpen (first :: earlier ++ [raw])) := by
  have hscopes : ((draft first earlier).closedBy raw).openStamps.map Stamp.mark =
      ((draft first earlier).closedBy raw).scopes.map Frame.item := by
    rw [Draft.openStamps, Draft.scopes, List.map_map, List.map_map]
    rfl
  rw [hscopes, Draft.scopes_closedBy, (draft_scoped first earlier).resolve hblank, List.map_reverse,
    List.mem_reverse, List.map_map]
  simp [Function.comp_def, Mark.frame]

theorem markReaches_of_container (hnodes : document.nodes = (draft first (earlier ++ raw :: later)).forest)
    (hblank : Text.trim raw ≠ []) {mark : Mark} (hmark : mark ∈ (draft first earlier).marks)
    (hcontainer : mark.content.isContainer) :
    MarkReaches (first :: (earlier ++ raw :: later)) document mark (first :: earlier).length ↔
      mark ∈ ((draft first earlier).closedBy raw).openStamps.map Stamp.mark ∧
        Taken (first :: (earlier ++ raw :: later)) document (first :: earlier).length := by
  rw [mem_openStamps_iff hblank]
  constructor
  · rintro ⟨node, _, rfl, ⟨hencloses, htaken⟩ | ⟨hnot, _⟩⟩
    · exact ⟨((encloses_iff hblank).mp (hnodes ▸ hencloses)).2.2, htaken⟩
    · simp [hnot] at hcontainer
  · rintro ⟨hopen, htaken⟩
    obtain ⟨node, hnode, rfl⟩ := exists_of_mem_marks (raw :: later) hmark
    obtain ⟨k, _, hstart⟩ := start_eq_indentAt [] hmark
    have hline : node.mark.line? = some (k : Int) := by
      rw [← Mark.line?_head, Mark.line?, hstart]
      rfl
    refine ⟨node, hnodes ▸ hnode, rfl, .inside (k := k) ?_ htaken⟩
    rw [hnodes]
    exact (encloses_iff hblank).mpr ⟨hnode, hline, hopen⟩

/-- A node that is no container reaches a line on which a node was put right below it. -/
theorem markReaches_of_not_container (hnodes : document.nodes = (draft first (earlier ++ raw :: later)).forest)
    {mark : Mark} (hmark : mark ∈ (draft first earlier).marks) (hnot : mark.content.isContainer = false) :
    MarkReaches (first :: (earlier ++ raw :: later)) document mark (first :: earlier).length ↔
      ∃ place ∈ (draft first (earlier ++ [raw])).places.map Place.head, place.parent? = some mark ∧
        place.mark.line? = some ((first :: earlier).length : Int) := by
  have hgrows := draft_grows first (earlier ++ [raw]) later
  rw [List.append_assoc, List.singleton_append] at hgrows
  constructor
  · rintro ⟨node, hnode, rfl, ⟨hencloses, _⟩ | @⟨_, child, hchild, hline⟩⟩
    · have hcontainer := hencloses.isContainer
      simp [hcontainer] at hnot
    · rw [hnodes] at hnode
      refine ⟨⟨some node.mark.head, child.mark.head⟩, hgrows.mem_places_of_lt
        (Draft.mem_places_head.mpr (.inr ⟨node, hnode, child, hchild, rfl⟩)) hline ?_, rfl, hline⟩
      simp
  · rintro ⟨⟨parent?, mark'⟩, hplace, rfl, hline⟩
    obtain ⟨node, hnode, rfl⟩ := exists_of_mem_marks (raw :: later) hmark
    obtain ⟨child, hchild, rfl⟩ := exists_child_of_place hnode (hgrows.mem_places hplace)
    exact ⟨node, hnodes ▸ hnode, rfl, .below (by simpa using hnot) hchild hline⟩

theorem nodesOn_ne_nil {node : Node} (hnode : node ∈ Node.preorderForest document.nodes) {l : Nat}
    (hline : node.mark.line? = some (l : Int)) : document.nodesOn l ≠ [] :=
  List.ne_nil_of_mem (List.mem_filter.mpr ⟨hnode, by simp [hline]⟩)

/-- No node reaches a line that gives no node and goes into no script. -/
theorem not_markReaches {l : Nat} {lines : List Text} {mark : Mark} (hnone : document.nodesOn l = [])
    (hnot : mark.content.isContainer → ¬ Taken lines document l) : ¬ MarkReaches lines document mark l := by
  rintro ⟨node, hnode, rfl, ⟨hencloses, htaken⟩ | @⟨_, child, hchild, hline⟩⟩
  · exact hnot (by simpa using hencloses.isContainer) htaken
  · exact nodesOn_ne_nil (Node.child_mem_preorderForest hnode hchild) hline hnone

theorem isContainer_of_mem_openStamps (hblank : Text.trim raw ≠ []) {mark : Mark}
    (hopen : mark ∈ ((draft first earlier).closedBy raw).openStamps.map Stamp.mark) :
    mark.content.isContainer := by
  have hfilter := (List.mem_filter.mp ((mem_openStamps_iff hblank).mp hopen)).2
  rw [Mark.isOpen, Bool.and_eq_true] at hfilter
  exact hfilter.1

/-- A line of script stretches the containers around the script. -/
theorem markReaches_of_script (hnodes : document.nodes = (draft first (earlier ++ raw :: later)).forest)
    (hblank : Text.trim raw ≠ []) (hnone : document.nodesOn (first :: earlier).length = [])
    (htaken : Taken (first :: (earlier ++ raw :: later)) document (first :: earlier).length) {mark : Mark}
    (hmark : mark ∈ (draft first earlier).marks) :
    mark ∈ ((draft first earlier).closedBy raw).openStamps.map Stamp.mark ↔
      MarkReaches (first :: (earlier ++ raw :: later)) document mark (first :: earlier).length := by
  by_cases hcontainer : mark.content.isContainer
  · rw [markReaches_of_container hnodes hblank hmark hcontainer, and_iff_left htaken]
  · constructor
    · exact fun hopen => absurd (isContainer_of_mem_openStamps hblank hopen) hcontainer
    · exact fun hreaches => absurd hreaches (not_markReaches hnone fun his => absurd his hcontainer)

/-- A container that holds the node of a line is open. -/
theorem mem_openStamps_of_holder {node : Node} {mark : Mark} (hcontainer : mark.content.isContainer)
    (hholder : (Draft.holder? ((draft first earlier).closedBy raw).frames node).map Mark.head = some mark) :
    mark ∈ ((draft first earlier).closedBy raw).openStamps.map Stamp.mark := by
  have hclosed : ((draft first earlier).closedBy raw).Shaped := (draft_shaped first earlier).close _ _
  cases hframes : ((draft first earlier).closedBy raw).frames with
  | nil => simp [hframes, Draft.holder?] at hholder
  | cons frame frames =>
    have hframe := hclosed.frames frame (by simp [hframes])
    rw [hframes, Draft.holder?, List.head?_cons, Option.map_some, Option.map_some] at hholder
    cases hpass : frame.item.passesOn node with
    | false =>
      rw [OpenNode.holder_of_keeps hpass] at hholder
      rw [← Option.some.inj hholder, Draft.openStamps, hframes]
      exact List.mem_cons_self
    | true =>
      -- the last item of a list is no container
      have hlist : frame.item.content.isList := by
        rw [hframe.passesOn_eq, Bool.and_eq_true] at hpass
        exact hpass.1
      obtain ⟨items, last, hchildren, hitem⟩ := hframe.exists_last hlist
      rw [OpenNode.holder_of_passesOn hpass hchildren] at hholder
      have hlast : last.content.isContainer := by simpa [← Option.some.inj hholder] using hcontainer
      exact absurd hitem (Content.isBlock_of_isContainer hlast).2

theorem line_lt_of_mem_marks {mark : Mark} (hmark : mark ∈ (draft first earlier).marks) :
    mark.line? ≠ some ((first :: earlier).length : Int) := by
  obtain ⟨k, hk, hstart⟩ := start_eq_indentAt [] hmark
  rw [Mark.line?, hstart, Option.map_some, ne_eq, Option.some.injEq]
  omega

/-- A line that gives a node stretches the containers around it and the node that holds the new one. -/
theorem markReaches_of_node (hnodes : document.nodes = (draft first (earlier ++ raw :: later)).forest)
    (hblank : Text.trim raw ≠ [])
    (htaken : Taken (first :: (earlier ++ raw :: later)) document (first :: earlier).length)
    {inList : Bool} {node : Node} (hfresh : node.Fresh inList)
    (hplaces : (draft first (earlier ++ [raw])).places = (draft first earlier).places ++
      (node.place (lineSpan (first :: earlier).length raw)).places (Draft.holder?
        ((draft first earlier).closedBy raw).frames (node.place (lineSpan (first :: earlier).length raw))))
    {mark : Mark} (hmark : mark ∈ (draft first earlier).marks) :
    (mark ∈ ((draft first earlier).closedBy raw).openStamps.map Stamp.mark ∨
      (Draft.holder? ((draft first earlier).closedBy raw).frames
        (node.place (lineSpan (first :: earlier).length raw))).map Mark.head = some mark) ↔
      MarkReaches (first :: (earlier ++ raw :: later)) document mark (first :: earlier).length := by
  have hstart : (node.place (lineSpan (first :: earlier).length raw)).mark.head.line? =
      some ((first :: earlier).length : Int) :=
    congrArg (Option.map Prod.fst) (Node.start?_head_mark (Node.span?_place _ node))
  by_cases hcontainer : mark.content.isContainer
  · rw [markReaches_of_container hnodes hblank hmark hcontainer, and_iff_left htaken]
    exact or_iff_left_of_imp (mem_openStamps_of_holder hcontainer)
  · have hshut : mark ∉ ((draft first earlier).closedBy raw).openStamps.map Stamp.mark :=
      fun hopen => hcontainer (isContainer_of_mem_openStamps hblank hopen)
    rw [or_iff_right hshut, markReaches_of_not_container hnodes hmark (by simpa using hcontainer), hplaces,
      (hfresh.places_place _ _).2]
    constructor
    · intro hholder
      exact ⟨_, List.mem_map_of_mem (List.mem_append_right _ List.mem_cons_self), hholder, hstart⟩
    · rintro ⟨_, hplace, hparent, hline⟩
      obtain ⟨place, hmem, rfl⟩ := List.mem_map.mp hplace
      obtain hold | hnew := List.mem_append.mp hmem
      · exact absurd hline (line_lt_of_mem_marks (Draft.mem_marks (List.mem_map_of_mem hold)))
      obtain rfl | hbelow := List.mem_cons.mp hnew
      · exact hparent
      · -- the new node itself was not there before the line
        obtain ⟨child, _, rfl⟩ := List.mem_map.mp hbelow
        obtain rfl := Option.some.inj hparent
        exact absurd hstart (line_lt_of_mem_marks hmark)

/-- The stamps are the same when a line has closed what it closes, so the line stretches those of the draft. -/
theorem ends_of_follows
    (hends : ∀ stamp ∈ (draft first earlier).stamps, stamp.Ends (first :: (earlier ++ raw :: later))
      (MarkReaches (first :: (earlier ++ raw :: later)) document stamp.mark) (first :: earlier).length)
    (touched : Mark → Prop)
    (htouched : ∀ mark ∈ (draft first earlier).marks, touched mark ↔
      MarkReaches (first :: (earlier ++ raw :: later)) document mark (first :: earlier).length)
    {stamp : Stamp} (hfollows : Draft.Follows ((draft first earlier).closedBy raw).stamps
      (first :: earlier).length raw touched stamp) :
    stamp.Ends (first :: (earlier ++ raw :: later))
      (MarkReaches (first :: (earlier ++ raw :: later)) document stamp.mark) ((first :: earlier).length + 1) := by
  have hclosed := (draft first earlier).stamps_closedBy raw
  have hmarks := (draft first earlier).map_mark_stamps
  refine Stamp.Ends.follow (getD_line first raw earlier later) (fun stamp hstamp => ?_)
    (fun stamp hstamp => ?_) hfollows
  · exact hends stamp (hclosed.mem_iff.mp hstamp)
  · exact htouched stamp.mark (hmarks.mem_iff.mp (List.mem_map_of_mem (hclosed.mem_iff.mp hstamp)))

/-- A line that is not taken stretches nothing. -/
theorem ends_of_not_taken
    (hends : ∀ stamp ∈ (draft first earlier).stamps, stamp.Ends (first :: (earlier ++ raw :: later))
      (MarkReaches (first :: (earlier ++ raw :: later)) document stamp.mark) (first :: earlier).length)
    (hnone : document.nodesOn (first :: earlier).length = [])
    (hnot : ¬ Taken (first :: (earlier ++ raw :: later)) document (first :: earlier).length)
    {stamp : Stamp} (hstamp : stamp ∈ ((draft first earlier).closedBy raw).stamps) :
    stamp.Ends (first :: (earlier ++ raw :: later))
      (MarkReaches (first :: (earlier ++ raw :: later)) document stamp.mark) ((first :: earlier).length + 1) := by
  apply ends_of_follows hends (fun _ => False)
  · intro mark _
    exact iff_of_false not_false (not_markReaches hnone fun _ => hnot)
  · exact .kept hstamp not_false

/-- A node that a line attached is on this line in the whole document. -/
theorem nodesOn_ne_nil_of_places (hnodes : document.nodes = (draft first (earlier ++ raw :: later)).forest)
    {node : Node} {parent? : Option Mark} (hplaces : (draft first (earlier ++ [raw])).places =
      (draft first earlier).places ++ (node.place (lineSpan (first :: earlier).length raw)).places parent?) :
    document.nodesOn (first :: earlier).length ≠ [] := by
  have hadded : (node.place (lineSpan (first :: earlier).length raw)).mark.head ∈
      (draft first (earlier ++ [raw])).marks := by
    rw [Draft.marks, hplaces, Node.places_eq]
    exact List.mem_map_of_mem (f := fun place : Place => place.mark.head)
      (List.mem_append_right _ List.mem_cons_self)
  obtain ⟨other, hother, hsame⟩ := exists_of_mem_marks later hadded
  rw [List.append_assoc, List.singleton_append, ← hnodes] at hother
  apply nodesOn_ne_nil hother
  rw [← Mark.line?_head, hsame]
  exact congrArg (Option.map Prod.fst) (Node.start?_head_mark (Node.span?_place _ node))

theorem ends_step (hnodes : document.nodes = (draft first (earlier ++ raw :: later)).forest)
    (hfaults : document.diagnostics = (draft first (earlier ++ raw :: later)).diagnostics)
    (himports : document.imports = (draft first (earlier ++ raw :: later)).imports)
    (hends : ∀ stamp ∈ (draft first earlier).stamps, stamp.Ends (first :: (earlier ++ raw :: later))
      (MarkReaches (first :: (earlier ++ raw :: later)) document stamp.mark) (first :: earlier).length) :
    ∀ stamp ∈ (draft first (earlier ++ [raw])).stamps, stamp.Ends (first :: (earlier ++ raw :: later))
      (MarkReaches (first :: (earlier ++ raw :: later)) document stamp.mark)
      ((first :: earlier).length + 1) := by
  have hclosed := (draft first earlier).stamps_closedBy raw
  have hnodup : (((draft first earlier).closedBy raw).stamps.map Stamp.mark).Nodup :=
    ((hclosed.map _).trans (draft first earlier).map_mark_stamps).nodup_iff.mpr (draft_marks_nodup first earlier)
  have htaken := taken_iff hnodes hfaults himports
  have hstep := Draft.step_cases (draft first earlier) (first :: earlier).length raw
  rw [← draft_concat] at hstep
  generalize hnext : draft first (earlier ++ [raw]) = next at hstep ⊢
  intro stamp hstamp
  cases hstep with
  | blank hblank =>
    have hnone := nodesOn_eq_nil hnodes (congrArg Draft.marks hnext)
    refine ends_of_not_taken hends hnone ?_ (hclosed.mem_iff.mpr hstamp)
    rw [htaken, hnone, hblank]
    simp
  | hoisted hblank =>
    have hnone : document.nodesOn (first :: earlier).length = [] :=
      nodesOn_eq_nil hnodes (by rw [hnext, Draft.marks_hoisted])
    have hquiet : document.faultsOn (first :: earlier).length = [] :=
      faultsOn_eq hfaults (by rw [hnext, List.append_nil]; rfl) (by simp)
    exact ends_of_follows hends _
      (fun mark => markReaches_of_script hnodes hblank hnone (htaken.mpr (.inr ⟨hblank, hquiet⟩)))
      (Draft.follows_extendTo hnodup stamp hstamp)
  | captured hblank _ hframes hcontent =>
    have hnone : document.nodesOn (first :: earlier).length = [] :=
      nodesOn_eq_nil hnodes (by rw [hnext, (draft_shaped first earlier).marks_withLine hframes hcontent])
    have hquiet : document.faultsOn (first :: earlier).length = [] :=
      faultsOn_eq hfaults (by rw [hnext, List.append_nil]; rfl) (by simp)
    obtain ⟨hopen, hstamps⟩ := Draft.stamps_withLine hframes hcontent raw
    have hfollows := Draft.follows_extendTo (hstamps ▸ hnodup) stamp hstamp
    rw [hopen, hstamps] at hfollows
    exact ends_of_follows hends _
      (fun mark => markReaches_of_script hnodes hblank hnone (htaken.mpr (.inr ⟨hblank, hquiet⟩))) hfollows
  | dropped hblank _ _ hline =>
    have hnone : document.nodesOn (first :: earlier).length = [] :=
      nodesOn_eq_nil hnodes (by rw [hnext, Draft.marks_reporting])
    have hfault := faultsOn_eq hfaults (by rw [hnext]; rfl) (by simpa using hline)
    refine ends_of_not_taken hends hnone ?_ hstamp
    rw [htaken, hnone, hfault]
    simp
  | @attached hblank _ node faults log _ hfresh _ =>
    have hplaces := Draft.places_attached (draft first earlier) faults log node (first :: earlier).length raw
    rw [← hnext] at hplaces
    have hreporting : ((((draft first earlier).closedBy raw).reporting faults log).stamps.map Stamp.mark).Nodup :=
      hnodup
    exact ends_of_follows hends _
      (fun mark => markReaches_of_node hnodes hblank
        (htaken.mpr (.inl (nodesOn_ne_nil_of_places hnodes hplaces))) hfresh hplaces)
      (Draft.follows_attach hreporting hfresh stamp hstamp)

end Line

theorem draft_ends {document : Document} {first : Text} {body : List Text}
    (hnodes : document.nodes = (draft first body).forest)
    (hfaults : document.diagnostics = (draft first body).diagnostics)
    (himports : document.imports = (draft first body).imports) {earlier : List Text} (later : List Text)
    (hbody : body = earlier ++ later) :
    ∀ stamp ∈ (draft first earlier).stamps, stamp.Ends (first :: body)
      (MarkReaches (first :: body) document stamp.mark) (first :: earlier).length := by
  induction earlier using List.reverseRecOn generalizing later with
  | nil => exact fun stamp hstamp => nomatch hstamp
  | append_singleton earlier raw ih =>
    rw [List.append_assoc, List.singleton_append] at hbody
    have hends := ih (raw :: later) hbody
    subst hbody
    have hnext := ends_step hnodes hfaults himports hends
    rwa [show (first :: (earlier ++ [raw])).length = (first :: earlier).length + 1 by simp]

theorem line_lt_of_mem {first : Text} {body : List Text} {node : Node}
    (hnode : node ∈ Node.preorderForest (draft first body).forest) {l : Nat}
    (hline : node.mark.line? = some (l : Int)) : l < (first :: body).length :=
  (start_of_line [] (head_mem_marks hnode) (by rw [Mark.line?_head, hline])).1

theorem Reaches.line_lt {document : Document} {first : Text} {body : List Text}
    (hnodes : document.nodes = (draft first body).forest) {node : Node}
    (hnode : node ∈ Node.preorderForest document.nodes) {l : Nat}
    (hreaches : Reaches (first :: body) document node l) : l < (first :: body).length := by
  obtain ⟨_, hattached | hscripted⟩ | @⟨_, child, hchild, hline⟩ := hreaches
  · obtain ⟨_, _, _, _, _, _, other, _, hon⟩ := hattached
    have hmem : other ∈ document.nodesOn l := by
      obtain hon | ⟨child, _, _, hon⟩ := hon
      · simp [hon]
      · simp [hon]
    obtain ⟨hother, hline⟩ := List.mem_filter.mp hmem
    exact line_lt_of_mem (hnodes ▸ hother) (by simpa using hline)
  · by_contra hlt
    apply hscripted.1
    rw [List.getD_eq_getElem?_getD, List.getElem?_eq_none (by omega)]
    rfl
  · exact line_lt_of_mem (hnodes ▸ Node.child_mem_preorderForest hnode hchild) hline

theorem exists_extends {document : Document} {first : Text} {body : List Text}
    (hnodes : document.nodes = (draft first body).forest)
    (hfaults : document.diagnostics = (draft first body).diagnostics)
    (himports : document.imports = (draft first body).imports) {node : Node}
    (hnode : node ∈ Node.preorderForest document.nodes) :
    ∃ k m : Nat, Extends (first :: body) document node k m := by
  have hstamp : node.stamp ∈ (draft first body).stamps := by
    rw [← (draft first body).stamps_forest.mem_iff, ← hnodes]
    exact List.mem_map_of_mem hnode
  obtain ⟨k, m, _, hline, hspan, hgreatest⟩ :=
    draft_ends hnodes hfaults himports [] (List.append_nil body).symm node.stamp hstamp
  refine ⟨k, m, hline, hspan, ?_⟩
  have hsame : ∀ l, l < (first :: body).length ∧ MarkReaches (first :: body) document node.stamp.mark l ↔
      Reaches (first :: body) document node l := by
    intro l
    constructor
    · rintro ⟨_, other, hother, hmark, hreaches⟩
      obtain rfl := eq_of_head_mark (hnodes ▸ hother) (hnodes ▸ hnode) hmark
      exact hreaches
    · exact fun hreaches => ⟨hreaches.line_lt hnodes hnode, node, hnode, rfl, hreaches⟩
  simpa only [hsame] using hgreatest

end Document

end ViewMarkup
