import ViewMarkup.Proofs.Document.Places

namespace ViewMarkup

/-- The content as it is when its first line is read. -/
def Content.head : Content → Content
  | script signature _ => script signature []
  | content => content

@[simp] theorem Content.isContainer_head (content : Content) :
    content.head.isContainer = content.isContainer := by
  cases content <;> rfl

@[simp] theorem Content.isList_head (content : Content) : content.head.isList = content.isList := by
  cases content <;> rfl

@[simp] theorem Content.isItem_head (content : Content) : content.head.isItem = content.isItem := by
  cases content <;> rfl

@[simp] theorem Content.isScript_head (content : Content) : content.head.isScript = content.isScript := by
  cases content <;> rfl

/-- The mark as it is when the first line of its node is read. -/
def Mark.head (mark : Mark) : Mark :=
  ⟨mark.content.head, mark.start?⟩

@[simp] theorem Mark.content_head (mark : Mark) : mark.head.content = mark.content.head := rfl

@[simp] theorem Mark.line?_head (mark : Mark) : mark.head.line? = mark.line? := rfl

/-- The place as it is when the first line of its node is read. -/
def Place.head (place : Place) : Place :=
  ⟨place.parent?.map Mark.head, place.mark.head⟩

/-- Places that were added by lines from `first` up to, but without, `stop`. -/
structure Added (first stop : Int) (places : List Place) : Prop where
  line : ∀ place ∈ places, ∃ line ∈ place.mark.line?, first ≤ line ∧ line < stop
  sorted : places.Pairwise fun place other =>
    ∀ line ∈ place.mark.line?, ∀ line' ∈ other.mark.line?, line ≤ line'
  nodup : (places.map Place.mark).Nodup

theorem Added.nil (first stop : Int) : Added first stop [] :=
  ⟨by simp, by simp, by simp⟩

/-- What later lines add comes after what earlier lines added. -/
theorem Added.append {first middle stop : Int} {earlier later : List Place}
    (hearlier : Added first middle earlier) (hlater : Added middle stop later)
    (hfirst : first ≤ middle) (hstop : middle ≤ stop) : Added first stop (earlier ++ later) := by
  have hbetween : ∀ place ∈ earlier, ∀ other ∈ later,
      ∀ line ∈ place.mark.line?, ∀ line' ∈ other.mark.line?, line < line' := by
    intro place hplace other hother line hline line' hline'
    obtain ⟨bound, hbound, _, hlt⟩ := hearlier.line place hplace
    obtain ⟨bound', hbound', hge, _⟩ := hlater.line other hother
    obtain rfl := Option.mem_unique hline hbound
    obtain rfl := Option.mem_unique hline' hbound'
    omega
  refine ⟨?_, ?_, ?_⟩
  · intro place hplace
    obtain hplace | hplace := List.mem_append.mp hplace
    · obtain ⟨line, hline, hge, hlt⟩ := hearlier.line place hplace
      exact ⟨line, hline, hge, by omega⟩
    · obtain ⟨line, hline, hge, hlt⟩ := hlater.line place hplace
      exact ⟨line, hline, by omega, hlt⟩
  · refine List.pairwise_append.mpr ⟨hearlier.sorted, hlater.sorted, ?_⟩
    intro place hplace other hother line hline line' hline'
    exact (hbetween place hplace other hother line hline line' hline').le
  · rw [List.map_append]
    refine List.nodup_append.mpr ⟨hearlier.nodup, hlater.nodup, ?_⟩
    intro mark hmark mark' hmark' heq
    subst heq
    obtain ⟨place, hplace, rfl⟩ := List.mem_map.mp hmark
    obtain ⟨other, hother, hsame⟩ := List.mem_map.mp hmark'
    obtain ⟨line, hline, _⟩ := hearlier.line place hplace
    have hlt := hbetween place hplace other hother line hline line (by rwa [hsame])
    omega

/-- A child that comes with its node on one line: the item of a new list, or the text of emphasis. -/
def Node.BuiltIn (node child : Node) : Prop :=
  node.content.isList ∧ child.content.isItem ∨
    node.content.role? = some .emphasis ∧ child.content.role? = some .text

/-- A node that was read from a line adds its own place and perhaps that of one built-in child. -/
theorem Node.Fresh.places_place {inList : Bool} {node : Node} (hfresh : node.Fresh inList)
    (parent? : Option Mark) (span : Span) :
    (node.place span).children.length ≤ 1 ∧
      (node.place span).places parent? = ⟨parent?, (node.place span).mark⟩ ::
        (node.place span).children.map fun child => ⟨some (node.place span).mark, child.mark⟩ := by
  cases hfresh with
  | plain hplain => exact ⟨Nat.zero_le _, rfl⟩
  | prose hprose =>
    cases hprose with
    | plain | item => exact ⟨Nat.zero_le _, rfl⟩
    | list | emphasis => exact ⟨le_rfl, rfl⟩

theorem Node.Fresh.builtIn {inList : Bool} {node : Node} (hfresh : node.Fresh inList) (span : Span) :
    ∀ child ∈ (node.place span).children, (node.place span).BuiltIn child ∧
      child.children = [] ∧ child.span? = some span := by
  cases hfresh with
  | plain hplain => simp [Node.leaf, Node.place, Node.children]
  | prose hprose =>
    cases hprose with
    | plain | item => simp [Node.leaf, Node.place, Node.children]
    | list value attributes hlist =>
      intro child hchild
      obtain rfl := List.mem_singleton.mp hchild
      exact ⟨.inl ⟨rfl, rfl⟩, rfl, rfl⟩
    | emphasis htag label attributes =>
      intro child hchild
      obtain rfl := List.mem_singleton.mp hchild
      exact ⟨.inr ⟨Node.role?_of_emphasisTag htag none attributes, rfl⟩, rfl, rfl⟩

theorem Node.span?_place (span : Span) (node : Node) : (node.place span).span? = some span := by
  cases node
  rfl

/-- What is read from a line has no lines of script yet. -/
theorem Node.Fresh.head_content {inList : Bool} {node : Node} (hfresh : node.Fresh inList) :
    node.content.head = node.content := by
  cases hfresh with
  | @plain content hplain =>
    cases content with
    | script signature body =>
      obtain rfl : body = [] := hplain
      rfl
    | _ => rfl
  | prose hprose => cases hprose <;> rfl

/-- A node with the mark of what was read from a line has the content that was read. -/
theorem Node.Fresh.content_of_mark {inList : Bool} {node : Node} (hfresh : node.Fresh inList) {span : Span}
    {other : Node} (hmark : other.mark.head = (node.place span).mark.head) :
    other.content.head = node.content := by
  have hcontent := congrArg Mark.content hmark
  rwa [Mark.content_head, Mark.content_head, Node.content_mark, Node.content_mark, Node.content_place,
    hfresh.head_content] at hcontent

/-- A built-in child differs from its node. -/
theorem Node.BuiltIn.head_ne {node child : Node} (hbuiltIn : node.BuiltIn child) :
    node.mark.head ≠ child.mark.head := by
  intro hsame
  have hcontent : node.content.head = child.content.head := congrArg Mark.content hsame
  obtain ⟨hlist, hitem⟩ | ⟨hemphasis, htext⟩ := hbuiltIn
  · rw [← Content.isItem_head, ← hcontent, Content.isItem_head, ← Content.role?_eq_item_iff,
      Content.role?_eq_list_iff.mpr hlist] at hitem
    cases hitem
  · cases hnode : node.content with
    | script => simp [hnode, Content.role?] at hemphasis
    | _ =>
      cases hchild : child.content with
      | text => simp_all [Content.head, Content.role?]
      | _ => simp_all [Content.head, Content.role?]

theorem Node.BuiltIn.not_isContainer {node child : Node} (hbuiltIn : node.BuiltIn child) :
    child.content.isContainer = false := by
  cases hcontainer : child.content.isContainer with
  | false => rfl
  | true =>
    obtain ⟨hnotText, hnotItem⟩ := Content.isBlock_of_isContainer hcontainer
    obtain ⟨_, hitem⟩ | ⟨_, htext⟩ := hbuiltIn
    · exact absurd (Content.role?_eq_item_iff.mpr hitem) hnotItem
    · exact absurd htext hnotText

theorem Node.BuiltIn.head_content {node child : Node} (hbuiltIn : node.BuiltIn child) :
    child.content.head = child.content := by
  have hnot := hbuiltIn.not_isContainer
  cases hcontent : child.content with
  | script => simp [hcontent, Content.isContainer] at hnot
  | _ => rfl

theorem Node.start?_head_mark {node : Node} {line : Int} {raw : Text}
    (hspan : node.span? = some (lineSpan line raw)) :
    node.mark.head.start? = some (line, (Text.indent raw : Int)) := by
  simp [Mark.head, Node.mark, hspan, lineSpan]

/-- A line of script changes nothing else of the script. -/
theorem OpenNode.head_mark_withLine {container : OpenNode} {signature : Text} {body : List Text}
    (hcontent : container.content = .script signature body) (raw : Text) :
    (container.withLine signature body raw).node.mark.head = container.node.mark.head := by
  simp [Mark.head, Node.mark, OpenNode.node, OpenNode.withLine, hcontent, Content.head, Node.content,
    Node.span?]

theorem Added.singleton {line : Int} {place : Place} (hline : place.mark.line? = some line) :
    Added line (line + 1) [place] :=
  ⟨by simp [hline], by simp, by simp⟩

/-- Two places on one line, of different nodes. -/
theorem Added.pair {line : Int} {place other : Place} (hline : place.mark.line? = some line)
    (hother : other.mark.line? = some line) (hne : place.mark ≠ other.mark) :
    Added line (line + 1) [place, other] :=
  ⟨by simp [hline, hother], by simp [hline, hother], by simp [hne]⟩

theorem Node.Fresh.added {inList : Bool} {node : Node} (hfresh : node.Fresh inList)
    (parent? : Option Mark) (line : Int) (raw : Text) :
    Added line (line + 1) (((node.place (lineSpan line raw)).places parent?).map Place.head) := by
  obtain ⟨hlength, hplaces⟩ := hfresh.places_place parent? (lineSpan line raw)
  have hbuiltIn := hfresh.builtIn (lineSpan line raw)
  have hline : (node.place (lineSpan line raw)).mark.head.line? = some line := by
    rw [Mark.line?, Node.start?_head_mark (Node.span?_place _ node)]
    rfl
  rw [hplaces]
  -- the children of a fresh node are none or one
  obtain hnone | hone := Nat.le_one_iff_eq_zero_or_eq_one.mp hlength
  · rw [List.length_eq_zero_iff.mp hnone]
    exact .singleton hline
  · obtain ⟨child, hchildren⟩ := List.length_eq_one_iff.mp hone
    rw [hchildren]
    obtain ⟨hchild, _, hspan⟩ := hbuiltIn child (by simp [hchildren])
    refine .pair hline ?_ hchild.head_ne
    rw [Place.head, Mark.line?, Node.start?_head_mark hspan]
    rfl

namespace Draft

/-- The draft `next` has what `draft` has, in the same order, and then what the lines from `first` up
to, but without, `stop` added. -/
structure Grows (first stop : Int) (draft next : Draft) : Prop where
  places : ∃ added, Added first stop added ∧
    next.places.map Place.head = draft.places.map Place.head ++ added
  diagnostics : ∃ faults : List Diagnostic,
    (∀ fault ∈ faults, first ≤ fault.range.start.line ∧ fault.range.start.line < stop) ∧
    next.diagnostics = draft.diagnostics ++ faults
  imports : draft.imports <+: next.imports

theorem Grows.refl (first stop : Int) (draft : Draft) : Grows first stop draft draft :=
  ⟨⟨[], .nil first stop, by simp⟩, ⟨[], by simp⟩, List.prefix_refl _⟩

theorem Grows.trans {first middle stop : Int} {draft next last : Draft}
    (hbefore : Grows first middle draft next) (hafter : Grows middle stop next last)
    (hfirst : first ≤ middle) (hstop : middle ≤ stop) : Grows first stop draft last := by
  obtain ⟨earlier, hearlier, hplaces⟩ := hbefore.places
  obtain ⟨later, hlater, hplaces'⟩ := hafter.places
  obtain ⟨faults, hfaults, hdiagnostics⟩ := hbefore.diagnostics
  obtain ⟨faults', hfaults', hdiagnostics'⟩ := hafter.diagnostics
  refine ⟨⟨earlier ++ later, hearlier.append hlater hfirst hstop, ?_⟩,
    ⟨faults ++ faults', ?_, ?_⟩, hbefore.imports.trans hafter.imports⟩
  · rw [hplaces', hplaces, List.append_assoc]
  · intro fault hfault
    obtain hfault | hfault := List.mem_append.mp hfault
    · obtain ⟨hge, hlt⟩ := hfaults fault hfault
      omega
    · obtain ⟨hge, hlt⟩ := hfaults' fault hfault
      omega
  · rw [hdiagnostics', hdiagnostics, List.append_assoc]

theorem Grows.mem_places {first stop : Int} {draft next : Draft} (hgrows : Grows first stop draft next)
    {place : Place} (hplace : place ∈ draft.places.map Place.head) : place ∈ next.places.map Place.head := by
  obtain ⟨added, _, hplaces⟩ := hgrows.places
  rw [hplaces]
  exact List.mem_append_left _ hplace

/-- What starts before the lines that were read was there before them. -/
theorem Grows.mem_places_of_lt {first stop : Int} {draft next : Draft}
    (hgrows : Grows first stop draft next) {place : Place} (hplace : place ∈ next.places.map Place.head)
    {line : Int} (hline : place.mark.line? = some line) (hlt : line < first) :
    place ∈ draft.places.map Place.head := by
  obtain ⟨added, hadded, hplaces⟩ := hgrows.places
  rw [hplaces] at hplace
  obtain hold | hnew := List.mem_append.mp hplace
  · exact hold
  · obtain ⟨line', hline', hge, _⟩ := hadded.line place hnew
    obtain rfl : line' = line := Option.some.inj (hline'.symm.trans hline)
    omega

theorem diagnostics_attach (draft : Draft) (node : Node) (line : Int) (raw : Text) :
    (draft.attach node line raw).diagnostics = draft.diagnostics := by
  rw [attach_eq]
  unfold touch adopt push
  repeat' split
  all_goals rfl

theorem imports_attach (draft : Draft) (node : Node) (line : Int) (raw : Text) :
    (draft.attach node line raw).imports = draft.imports := by
  rw [attach_eq]
  unfold touch adopt push
  repeat' split
  all_goals rfl

theorem Shaped.map_head_withLine {draft : Draft} (hshaped : draft.Shaped) {frame : Frame OpenNode}
    {frames : List (Frame OpenNode)} {signature : Text} {body : List Text}
    (hframes : draft.frames = frame :: frames) (hcontent : frame.item.content = .script signature body)
    (raw : Text) :
    (places { draft with frames := { frame with item := frame.item.withLine signature body raw } :: frames }).map
      Place.head = draft.places.map Place.head := by
  obtain ⟨before, parent?, hold, hnew⟩ := places_withLine hshaped hframes hcontent raw
  rw [hold, hnew, List.map_append, List.map_append]
  simp [Place.head, OpenNode.head_mark_withLine hcontent]

theorem places_attached (draft : Draft) (faults : List Diagnostic) (log : List LogRecord) (node : Node)
    (line : Int) (raw : Text) :
    ((((draft.closedBy raw).reporting faults log).attach node line raw).extendTo line raw.length).places =
      draft.places ++ (node.place (lineSpan line raw)).places
        (holder? (draft.closedBy raw).frames (node.place (lineSpan line raw))) := by
  rw [places_extendTo, places_attach, ← places_closedBy draft raw]
  rfl

theorem Shaped.grows_step {draft : Draft} (hshaped : draft.Shaped) (line : Int) (raw : Text) :
    Grows line (line + 1) draft (draft.step line raw) := by
  have hclosed : (draft.closedBy raw).Shaped := hshaped.close _ _
  have hstep := step_cases draft line raw
  generalize draft.step line raw = next at hstep ⊢
  cases hstep with
  | blank => exact .refl _ _ draft
  | hoisted hblank hscript himport =>
    refine ⟨⟨[], .nil _ _, ?_⟩, ⟨[], by simp, ?_⟩, ?_⟩
    · rw [places_extendTo, List.append_nil, ← places_closedBy draft raw]
      rfl
    · rw [List.append_nil]
      rfl
    · change draft.imports <+: if _ then draft.imports else draft.imports ++ [Text.trim raw]
      split
      · exact List.prefix_refl _
      · exact List.prefix_append _ _
  | captured hblank himport hframes hcontent =>
    refine ⟨⟨[], .nil _ _, ?_⟩, ⟨[], by simp, ?_⟩, List.prefix_refl _⟩
    · rw [places_extendTo, hclosed.map_head_withLine hframes hcontent, places_closedBy, List.append_nil]
    · rw [List.append_nil]
      rfl
  | @dropped hblank hscript fault log hread hline =>
    refine ⟨⟨[], .nil _ _, ?_⟩, ⟨[fault], ?_, rfl⟩, List.prefix_refl _⟩
    · rw [List.append_nil, ← places_closedBy draft raw]
      rfl
    · simp [hline]
  | @attached hblank hscript node faults log hread hfresh hline =>
    refine ⟨?_, ⟨faults, ?_, ?_⟩, ?_⟩
    · rw [places_attached, List.map_append]
      exact ⟨_, hfresh.added _ line raw, rfl⟩
    · intro fault hfault
      rw [hline fault hfault]
      omega
    · exact diagnostics_attach ((draft.closedBy raw).reporting faults log) node line raw
    · have himports := imports_attach ((draft.closedBy raw).reporting faults log) node line raw
      exact himports.symm ▸ List.prefix_refl _

theorem Shaped.grows_run {draft : Draft} (hshaped : draft.Shaped) (line : Int) (lines : List Text) :
    Grows line (line + lines.length) draft (draft.run line lines) := by
  induction lines generalizing draft line with
  | nil => exact .refl _ _ draft
  | cons raw lines ih =>
    have hrest := ih (hshaped.step line raw) (line + 1)
    rw [List.length_cons]
    push_cast
    rw [show line + (lines.length + 1) = line + 1 + lines.length by omega]
    exact (hshaped.grows_step line raw).trans hrest (by omega) (by omega)

theorem run_append (draft : Draft) (line : Int) (earlier later : List Text) :
    draft.run line (earlier ++ later) = (draft.run line earlier).run (line + earlier.length) later := by
  induction earlier generalizing draft line with
  | nil => simp [run]
  | cons raw earlier ih =>
    rw [List.cons_append, run, run, ih, List.length_cons]
    congr 1
    push_cast
    omega

end Draft

end ViewMarkup
