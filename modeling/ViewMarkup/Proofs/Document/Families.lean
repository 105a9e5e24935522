import ViewMarkup.Proofs.Document.Spans

namespace ViewMarkup

/-- The nodes right below a node, or the roots. -/
inductive Node.Family (forest : List Node) : Option Node → List Node → Prop where
  | roots : Node.Family forest none forest
  | children {parent : Node} (hparent : parent ∈ preorderForest forest) :
      Node.Family forest (some parent) parent.children

theorem Node.Family.subset {forest family : List Node} {parent? : Option Node}
    (hfamily : Node.Family forest parent? family) {node : Node} (hnode : node ∈ family) :
    node ∈ preorderForest forest := by
  cases hfamily with
  | roots => exact mem_preorderForest_of_mem hnode
  | children hparent => exact child_mem_preorderForest hparent hnode

theorem Node.Family.sublist {forest family : List Node} {parent? : Option Node}
    (hfamily : Node.Family forest parent? family) :
    (preorderForest family).Sublist (preorderForest forest) := by
  cases hfamily with
  | roots => exact List.Sublist.refl _
  | @children parent hparent =>
    refine List.Sublist.trans ?_ (sublist_of_mem_preorderForest hparent)
    cases parent
    exact List.sublist_cons_self _ _

/-- Only whether a node is an item matters for where it goes. -/
theorem Siblings.of_isItem {nodes siblings : List Node} {l : Nat} {content content' : Content}
    {parent? : Option (Nat × Node)} (hitem : content'.isItem = content.isItem)
    (hsiblings : Siblings nodes l content parent? siblings) : Siblings nodes l content' parent? siblings := by
  cases hsiblings with
  | root => exact .root
  | inside hkeeps => exact .inside (hitem ▸ hkeeps)
  | item hlist hnot hlast => exact .item hlist (hitem ▸ hnot) hlast

theorem Siblings.exists_family {nodes siblings : List Node} {l : Nat} {content : Content}
    {parent? : Option (Nat × Node)} (hsiblings : Siblings nodes l content parent? siblings)
    (hparent : ∀ parent ∈ parent?, parent.2 ∈ Node.preorderForest nodes) :
    ∃ node?, Node.Family nodes node? siblings := by
  cases hsiblings with
  | root => exact ⟨none, .roots⟩
  | @inside k container hkeeps => exact ⟨some container, .children (hparent _ rfl)⟩
  | @item k list item hlist hnot hlast =>
    exact ⟨some item, .children (Node.child_mem_preorderForest (hparent _ rfl) hlast.mem)⟩

namespace Document

section Forest

variable {first : Text} {body : List Text} {node : Node}

theorem place_of_family {family : List Node} {parent? : Option Node}
    (hfamily : Node.Family (draft first body).forest parent? family) (hnode : node ∈ family) :
    ⟨parent?.map fun parent => parent.mark.head, node.mark.head⟩ ∈ (draft first body).places.map Place.head := by
  cases hfamily with
  | roots => exact Draft.mem_places_head.mpr (.inl ⟨node, hnode, rfl⟩)
  | children hparent => exact Draft.mem_places_head.mpr (.inr ⟨_, hparent, node, hnode, rfl⟩)

/-- A node stands in one family only. -/
theorem family_unique {family family' : List Node} {parent? parent?' : Option Node}
    (hfamily : Node.Family (draft first body).forest parent? family)
    (hfamily' : Node.Family (draft first body).forest parent?' family')
    (hnode : node ∈ family) (hnode' : node ∈ family') : parent? = parent?' ∧ family = family' := by
  have hnodup := (draft_added first body).nodup
  have hplace := List.inj_on_of_nodup_map hnodup (place_of_family hfamily hnode)
    (place_of_family hfamily' hnode') rfl
  have hparent := congrArg Place.parent? hplace
  cases hfamily with
  | roots =>
    cases hfamily' with
    | roots => exact ⟨rfl, rfl⟩
    | children => cases hparent
  | children hmem =>
    cases hfamily' with
    | roots => cases hparent
    | children hmem' =>
      obtain rfl := eq_of_head_mark hmem hmem' (Option.some.inj hparent)
      exact ⟨rfl, rfl⟩

/-- No node is below itself. -/
theorem not_mem_below (hnode : node ∈ Node.preorderForest (draft first body).forest) :
    node ∉ Node.preorderForest node.children := by
  intro hbelow
  have hnodup := draft_marks_nodup first body
  rw [Draft.marks_eq_preorder] at hnodup
  have hsub := hnodup.sublist ((Node.sublist_of_mem_preorderForest hnode).map fun node => node.mark.head)
  obtain ⟨content, span?, children⟩ := node
  rw [Node.preorder, List.map_cons, List.nodup_cons] at hsub
  exact hsub.1 (List.mem_map_of_mem (f := fun node : Node => node.mark.head) hbelow)

/-- What is below a node does not start before it. -/
theorem line_le_of_below (hnode : node ∈ Node.preorderForest (draft first body).forest) {below : Node}
    (hbelow : below ∈ Node.preorderForest node.children) {k l : Nat}
    (hline : node.mark.line? = some (k : Int)) (hline' : below.mark.line? = some (l : Int)) : k ≤ l := by
  have hsorted := draft_marks_sorted first body
  rw [Draft.marks_eq_preorder, List.pairwise_map] at hsorted
  have hsub := hsorted.sublist (Node.sublist_of_mem_preorderForest hnode)
  obtain ⟨content, span?, children⟩ := node
  rw [Node.preorder, List.pairwise_cons] at hsub
  exact_mod_cast hsub.1 below hbelow k hline l hline'

/-- The later of two siblings does not start before the earlier one. -/
theorem line_le_of_later {parent? : Option Node} {before after : List Node}
    (hfamily : Node.Family (draft first body).forest parent? (before ++ node :: after)) {later : Node}
    (hlater : later ∈ after) {k l : Nat} (hline : node.mark.line? = some (k : Int))
    (hline' : later.mark.line? = some (l : Int)) : later ≠ node ∧ k ≤ l := by
  have hsorted := draft_marks_sorted first body
  have hnodup := draft_marks_nodup first body
  rw [Draft.marks_eq_preorder] at hnodup
  rw [Draft.marks_eq_preorder, List.pairwise_map] at hsorted
  have hsplit : Node.preorderForest (before ++ node :: after) =
      Node.preorderForest before ++ (node.preorder ++ Node.preorderForest after) := by
    rw [Node.preorderForest_append, Node.preorderForest]
  have hmem := Node.mem_preorderForest_of_mem hlater
  constructor
  · rintro rfl
    have hsub := hnodup.sublist (hfamily.sublist.map fun node => node.mark.head)
    rw [hsplit, List.map_append, List.map_append] at hsub
    have hapart := (List.nodup_append.mp (List.nodup_append.mp hsub).2.1).2.2
    exact hapart _ (List.mem_map_of_mem (Node.mem_preorder_self later)) _ (List.mem_map_of_mem hmem) rfl
  · have hsub := hsorted.sublist hfamily.sublist
    rw [hsplit] at hsub
    have hle := (List.pairwise_append.mp (List.pairwise_append.mp hsub).2.1).2.2 node
      (Node.mem_preorder_self node) later hmem k hline l hline'
    exact_mod_cast hle

theorem exists_line (hnode : node ∈ Node.preorderForest (draft first body).forest) :
    ∃ l : Nat, node.mark.line? = some (l : Int) := by
  obtain ⟨l, _, hstart⟩ := start_eq_indentAt [] (head_mem_marks hnode)
  exact ⟨l, congrArg (Option.map Prod.fst) hstart⟩

theorem line_pos (hnode : node ∈ Node.preorderForest (draft first body).forest) {l : Nat}
    (hline : node.mark.line? = some (l : Int)) : 0 < l := by
  have hmark := head_mem_marks hnode
  rw [Draft.marks_eq_map_head] at hmark
  obtain ⟨place, hplace, hsame⟩ := List.mem_map.mp hmark
  obtain ⟨line, hline', hpos, _⟩ := (draft_added first body).line place hplace
  rw [hsame, Mark.line?_head, hline, Option.mem_some_iff] at hline'
  omega

end Forest

section Line

variable {first raw : Text} {earlier later : List Text}

/-- The place that a line added is that of the node that was read or of its built-in child. -/
theorem exists_attached {place : Place}
    (hplace : place ∈ (draft first (earlier ++ raw :: later)).places.map Place.head)
    (hline : place.mark.line? = some ((first :: earlier).length : Int)) :
    Text.trim raw ≠ [] ∧ ∃ (node : Node) (inList : Bool), node.Fresh inList ∧
      (place = ⟨(Draft.holder? ((draft first earlier).closedBy raw).frames
          (node.place (lineSpan (first :: earlier).length raw))).map Mark.head,
          (node.place (lineSpan (first :: earlier).length raw)).mark.head⟩ ∨
        ∃ child ∈ (node.place (lineSpan (first :: earlier).length raw)).children,
          place = ⟨some (node.place (lineSpan (first :: earlier).length raw)).mark.head, child.mark.head⟩) := by
  have hgrows := draft_grows first (earlier ++ [raw]) later
  rw [List.append_assoc, List.singleton_append] at hgrows
  have hnew := hgrows.mem_places_of_lt hplace hline (by simp)
  -- nothing on the line was there before
  have hold : place.mark ∉ (draft first earlier).marks := fun hmark => line_lt_of_mem_marks hmark hline
  have hquiet : (draft first (earlier ++ [raw])).marks ≠ (draft first earlier).marks := by
    intro hsame
    apply hold
    rw [← hsame, Draft.marks_eq_map_head]
    exact List.mem_map_of_mem hnew
  have hstep := Draft.step_cases (draft first earlier) (first :: earlier).length raw
  rw [← draft_concat] at hstep
  generalize hnext : draft first (earlier ++ [raw]) = next at hstep hnew hquiet
  cases hstep with
  | blank => exact absurd rfl hquiet
  | hoisted => exact absurd (Draft.marks_hoisted _ _ _ _ _) hquiet
  | captured _ _ hframes hcontent =>
    exact absurd ((draft_shaped first earlier).marks_withLine hframes hcontent _ _) hquiet
  | dropped => exact absurd (Draft.marks_reporting _ _ _ _) hquiet
  | @attached hblank _ node faults log _ hfresh _ =>
    refine ⟨hblank, node, _, hfresh, ?_⟩
    rw [Draft.places_attached, (hfresh.places_place _ _).2, List.map_append, List.mem_append] at hnew
    have hadded := hnew.resolve_left fun hmem => hold (by
      rw [Draft.marks_eq_map_head]
      exact List.mem_map_of_mem hmem)
    rw [List.map_cons, List.map_map, List.mem_cons, List.mem_map] at hadded
    obtain rfl | ⟨child, hchild, rfl⟩ := hadded
    · exact .inl rfl
    · exact .inr ⟨child, hchild, rfl⟩

theorem not_blank_of_line {node : Node}
    (hnode : node ∈ Node.preorderForest (draft first (earlier ++ raw :: later)).forest)
    (hline : node.mark.line? = some ((first :: earlier).length : Int)) : Text.trim raw ≠ [] := by
  have hmark := head_mem_marks hnode
  rw [Draft.marks_eq_map_head] at hmark
  obtain ⟨place, hplace, hsame⟩ := List.mem_map.mp hmark
  exact (exists_attached hplace (by rw [hsame, Mark.line?_head, hline])).1

/-- A node is built into its parent, or its family is that of the container around its line. -/
theorem siblings_of_family {node : Node} {family : List Node} {parent? : Option Node}
    (hfamily : Node.Family (draft first (earlier ++ raw :: later)).forest parent? family)
    (hnode : node ∈ family) (hline : node.mark.line? = some ((first :: earlier).length : Int)) :
    (∃ parent, parent? = some parent ∧ parent.mark.line? = some ((first :: earlier).length : Int) ∧
      parent.BuiltIn node) ∨
    ∃ container?, Innermost (Encloses (first :: (earlier ++ raw :: later))
        (draft first (earlier ++ raw :: later)).forest (first :: earlier).length) container? ∧
      Siblings (draft first (earlier ++ raw :: later)).forest (first :: earlier).length node.content
        container? family := by
  have hplace := place_of_family hfamily hnode
  obtain ⟨hblank, read, inList, hfresh, hmain | ⟨child, hchild, hbuiltIn⟩⟩ := exists_attached hplace hline
  · right
    obtain ⟨container?, hinnermost, htop⟩ := exists_innermost first earlier later hblank
    rw [hmain] at hplace
    obtain ⟨siblings, hsiblings, other, hother, hmark⟩ := exists_sibling hinnermost htop hplace
    have hsame : node.mark.head = (read.place (lineSpan (first :: earlier).length raw)).mark.head :=
      congrArg Place.mark hmain
    obtain ⟨node?, hfamily'⟩ := hsiblings.exists_family (by
      rintro ⟨k, container⟩ rfl
      exact hinnermost.1.mem)
    obtain rfl := eq_of_head_mark (hfamily'.subset hother) (hfamily.subset hnode) (hmark.trans hsame.symm)
    rw [(family_unique hfamily hfamily' hnode hother).2]
    refine ⟨container?, hinnermost, hsiblings.of_isItem ?_⟩
    rw [← Content.isItem_head, hfresh.content_of_mark hsame, Node.content_place]
  · left
    obtain ⟨hpair, _, _⟩ := hfresh.builtIn _ child hchild
    obtain ⟨parent, rfl, hparent⟩ := Option.map_eq_some_iff.mp (congrArg Place.parent? hbuiltIn)
    refine ⟨parent, rfl, ?_, hpair.of_head (congrArg Mark.content hparent)
      (congrArg (fun place : Place => place.mark.content) hbuiltIn)⟩
    rw [← Mark.line?_head, hparent]
    exact congrArg (Option.map Prod.fst) (Node.start?_head_mark (Node.span?_place _ read))

end Line

section Below

variable {first : Text} {body : List Text}

theorem exists_siblings {node : Node} {family : List Node} {parent? : Option Node}
    (hfamily : Node.Family (draft first body).forest parent? family) (hnode : node ∈ family) {l : Nat}
    (hline : node.mark.line? = some (l : Int)) :
    (∃ parent, parent? = some parent ∧ parent.mark.line? = some (l : Int) ∧ parent.BuiltIn node) ∨
    ∃ container?, Innermost (Encloses (first :: body) (draft first body).forest l) container? ∧
      Siblings (draft first body).forest l node.content container? family := by
  have hmem := hfamily.subset hnode
  obtain ⟨earlier, raw, later, rfl, rfl⟩ := exists_split (line_pos hmem hline) (line_lt_of_mem hmem hline)
  exact siblings_of_family hfamily hnode hline

/-- How a child on line `l` came below its parent: with the parent, below the open container that the parent
is, or below the last item of an open list. -/
inductive Holds (lines : List Text) (forest : List Node) (l : Nat) (parent child : Node) : Prop where
  | builtIn (hline : parent.mark.line? = some (l : Int)) (hbuiltIn : parent.BuiltIn child)
  | inside {k : Nat} (hencloses : Encloses lines forest l k parent)
  | item {k : Nat} {list : Node} (hencloses : Encloses lines forest l k list) (hlast : LastItem list l parent)
      (hnot : child.content.isItem = false)

theorem holds_of_child {parent child : Node} (hparent : parent ∈ Node.preorderForest (draft first body).forest)
    (hchild : child ∈ parent.children) {l : Nat} (hline : child.mark.line? = some (l : Int)) :
    Holds (first :: body) (draft first body).forest l parent child := by
  have hfamily : Node.Family (draft first body).forest (some parent) parent.children := .children hparent
  obtain ⟨_, hsame, hline', hbuiltIn⟩ | ⟨container?, hinnermost, hsiblings⟩ :=
    exists_siblings hfamily hchild hline
  · obtain rfl := Option.some.inj hsame
    exact .builtIn hline' hbuiltIn
  · generalize hchildren : parent.children = family at hsiblings hfamily
    rw [hchildren] at hchild
    -- the family of the child belongs to one parent only
    cases hsiblings with
    | root => cases (family_unique hfamily .roots hchild hchild).1
    | inside =>
      obtain rfl := Option.some.inj (family_unique hfamily (.children hinnermost.1.mem) hchild hchild).1
      exact .inside hinnermost.1
    | item hlist hnot hlast =>
      have hitem := Node.child_mem_preorderForest hinnermost.1.mem hlast.mem
      obtain rfl := Option.some.inj (family_unique hfamily (.children hitem) hchild hchild).1
      exact .item hinnermost.1 hlast hnot

theorem trim_ne_nil_of_line {node : Node} (hnode : node ∈ Node.preorderForest (draft first body).forest) {l : Nat}
    (hline : node.mark.line? = some (l : Int)) : Text.trim ((first :: body).getD l []) ≠ [] := by
  obtain ⟨earlier, raw, later, rfl, rfl⟩ := exists_split (line_pos hnode hline) (line_lt_of_mem hnode hline)
  rw [getD_line]
  exact not_blank_of_line hnode hline

/-- What is on a line that a container encloses does not stand beside the container. -/
theorem not_mem_family_of_encloses {container : Node} {family : List Node} {parent? : Option Node}
    (hfamily : Node.Family (draft first body).forest parent? family) (hcontainer : container ∈ family)
    {k l : Nat} (hencloses : Encloses (first :: body) (draft first body).forest l k container) {node : Node}
    (hline : node.mark.line? = some (l : Int)) : node ∉ family := by
  intro hnode
  have hbefore := hencloses.before
  have hself := not_mem_below hencloses.mem
  obtain ⟨parent, rfl, hparent, _⟩ | ⟨container?, hinnermost, hsiblings⟩ := exists_siblings hfamily hnode hline
  · -- the parent would start behind the container, which is its child
    cases hfamily with
    | children hmem =>
      have hle := line_le_of_below hmem (Node.mem_preorderForest_of_mem hcontainer) hparent hencloses.line
      omega
  · cases hsiblings with
    | root => exact hinnermost k container hencloses
    | @inside i inner _ =>
      have hbelow := Node.mem_preorderForest_of_mem hcontainer
      have hle := line_le_of_below hinnermost.1.mem hbelow hinnermost.1.line hencloses.line
      obtain hlt | rfl := hinnermost.2 k container hencloses
      · omega
      · exact hself hbelow
    | @item i list item _ _ hlast =>
      have hbelow := Node.child_mem_preorderForest (Node.mem_preorderForest_of_mem hlast.mem) hcontainer
      have hle := line_le_of_below hinnermost.1.mem hbelow hinnermost.1.line hencloses.line
      obtain hlt | rfl := hinnermost.2 k container hencloses
      · omega
      · exact hself hbelow

/-- No two open containers start at one column. -/
theorem eq_of_column {mark mark' : Mark}
    (hmark : mark ∈ (draft first body).marks.filter (Mark.isOpen (first :: body)))
    (hmark' : mark' ∈ (draft first body).marks.filter (Mark.isOpen (first :: body)))
    (hsame : mark.column = mark'.column) : mark = mark' := by
  have hscoped := draft_scoped first body
  have hdecreasing := hscoped.decreasing
  rw [hscoped.scopes, List.pairwise_reverse, List.pairwise_map] at hdecreasing
  have hnodup : (((draft first body).marks.filter (Mark.isOpen (first :: body))).map Mark.column).Nodup :=
    List.pairwise_map.mpr (hdecreasing.imp fun hlt => hlt.ne)
  exact List.inj_on_of_nodup_map hnodup hmark hmark' hsame

/-- A container is deeper than the containers around its line. -/
theorem indent_lt_of_encloses {k l : Nat} {outer inner : Node}
    (hencloses : Encloses (first :: body) (draft first body).forest l k outer)
    (hinner : inner ∈ Node.preorderForest (draft first body).forest) (hcontainer : inner.content.isContainer)
    (hline : inner.mark.line? = some (l : Int)) :
    indentAt (first :: body) k < indentAt (first :: body) l := by
  have hle : indentAt (first :: body) k ≤ indentAt (first :: body) l := by
    have hadmits := hencloses.admits
    simp only [Content.admits, Bool.or_eq_true, decide_eq_true_eq, Bool.and_eq_true, beq_iff_eq] at hadmits
    rw [indentAt, indentAt] at *
    omega
  obtain ⟨earlier, raw, later, rfl, rfl⟩ := exists_split (line_pos hinner hline) (line_lt_of_mem hinner hline)
  have hopen := ((encloses_iff (not_blank_of_line hinner hline)).mp hencloses).2.2
  have hmem := hencloses.mem
  rw [show earlier ++ raw :: later = earlier ++ [raw] ++ later by simp] at hinner hmem hle ⊢
  have hbefore : (k : Int) < (first :: (earlier ++ [raw])).length := by
    have hlt := hencloses.before
    simp only [List.length_cons, List.length_append, List.length_nil] at hlt ⊢
    omega
  have houter := mem_marks_of_lt hmem hencloses.line hbefore
  have hlast := mem_marks_of_lt hinner hline (by simp)
  obtain ⟨_, hstart⟩ := start_of_line later houter (by rw [Mark.line?_head, hencloses.line])
  obtain ⟨_, hstart'⟩ := start_of_line later hlast (by rw [Mark.line?_head, hline])
  -- both containers are open after the line of the inner one
  have hopen' : inner.mark.head.isOpen (first :: earlier ++ [raw]) := by
    rw [Mark.isOpen_of_last raw hstart']
    simpa using hcontainer
  refine lt_of_le_of_ne hle fun hsame => hencloses.before.ne ?_
  have hmark := eq_of_column (List.mem_filter.mpr ⟨houter, (List.mem_filter.mp hopen).2⟩)
    (List.mem_filter.mpr ⟨hlast, hopen'⟩) (by
      rw [Mark.column, hstart, Mark.column, hstart', hsame]
      rfl)
  have hlines := congrArg Mark.line? hmark
  rw [Mark.line?_head, Mark.line?_head, hencloses.line, hline] at hlines
  exact_mod_cast Option.some.inj hlines

theorem encloses_trans {j k l : Nat} {outer inner : Node}
    (houter : Encloses (first :: body) (draft first body).forest j k outer)
    (hinner : Encloses (first :: body) (draft first body).forest l j inner) :
    Encloses (first :: body) (draft first body).forest l k outer := by
  have hlt := indent_lt_of_encloses houter hinner.mem hinner.isContainer hinner.line
  -- what the inner container takes is deeper than the outer one
  have hdeeper : ∀ raw, inner.content.admits (indentAt (first :: body) j) raw →
      outer.content.admits (indentAt (first :: body) k) raw := by
    intro raw hadmits
    simp only [Content.admits, Bool.or_eq_true, decide_eq_true_eq, Bool.and_eq_true, beq_iff_eq] at hadmits ⊢
    omega
  have hbefore := houter.before
  refine ⟨houter.mem, houter.isContainer, houter.line, hbefore.trans hinner.before, ?_, hdeeper _ hinner.admits⟩
  intro i hki hil hblank
  obtain hij | rfl | hji := Nat.lt_trichotomy i j
  · exact houter.isOpen i hki hij hblank
  · exact houter.admits
  · exact hdeeper _ (hinner.isOpen i hji hil hblank)

/-- The container itself, or a node on a line that the container encloses. -/
def Within (lines : List Text) (forest : List Node) (k : Nat) (container node : Node) : Prop :=
  node = container ∨ ∃ j : Nat, node.mark.line? = some (j : Int) ∧ Encloses lines forest j k container

theorem Within.encloses {k l i : Nat} {container inner : Node} (hk : container.mark.line? = some (k : Int))
    (hwithin : Within (first :: body) (draft first body).forest k container inner)
    (hinner : Encloses (first :: body) (draft first body).forest l i inner) :
    Encloses (first :: body) (draft first body).forest l k container := by
  obtain rfl | ⟨j, hj, houter⟩ := hwithin
  · obtain rfl : i = k := by exact_mod_cast Option.some.inj (hinner.line.symm.trans hk)
    exact hinner
  · obtain rfl : i = j := by exact_mod_cast Option.some.inj (hinner.line.symm.trans hj)
    exact encloses_trans houter hinner

/-- What is known of a node below a container. An item is in a list that is below the container as well, or
is the container. -/
structure Inside (lines : List Text) (forest : List Node) (k : Nat) (container node : Node) : Prop where
  mem : node ∈ Node.preorderForest forest
  line : ∃ l : Nat, node.mark.line? = some (l : Int) ∧
    (l = k ∧ node.content.isContainer = false ∨ Encloses lines forest l k container)
  list : node.content.isItem → ∃ list ∈ Node.preorderForest forest, node ∈ list.children ∧
    Within lines forest k container list

theorem Inside.encloses {lines : List Text} {forest : List Node} {k : Nat} {container node : Node}
    (hinside : Inside lines forest k container node) (hcontainer : node.content.isContainer) {l : Nat}
    (hline : node.mark.line? = some (l : Int)) : Encloses lines forest l k container := by
  obtain ⟨l', hline', ⟨_, hnot⟩ | hencloses⟩ := hinside.line
  · simp [hcontainer] at hnot
  · obtain rfl : l = l' := by exact_mod_cast Option.some.inj (hline.symm.trans hline')
    exact hencloses

/-- What is known of a node below a container is known of its children. -/
theorem inside_child {k : Nat} {container node child : Node}
    (hcontainer : container ∈ Node.preorderForest (draft first body).forest)
    (hisContainer : container.content.isContainer) (hk : container.mark.line? = some (k : Int))
    (hnode : node = container ∨ Inside (first :: body) (draft first body).forest k container node)
    (hchild : child ∈ node.children) : Inside (first :: body) (draft first body).forest k container child := by
  have hmem : node ∈ Node.preorderForest (draft first body).forest := by
    obtain rfl | hinside := hnode
    · exact hcontainer
    · exact hinside.mem
  have hwithin : node.content.isContainer →
      Within (first :: body) (draft first body).forest k container node := by
    intro his
    obtain ⟨j, hj⟩ := exists_line hmem
    exact hnode.imp_right fun hinside => ⟨j, hj, hinside.encloses his hj⟩
  have hmem' := Node.child_mem_preorderForest hmem hchild
  obtain ⟨l, hline⟩ := exists_line hmem'
  cases holds_of_child hmem hchild hline with
  | builtIn hline' hbuiltIn =>
    refine ⟨hmem', ⟨l, hline, ?_⟩, fun hitem => ⟨node, hmem, hchild, hwithin ?_⟩⟩
    · obtain rfl | hinside := hnode
      · left
        exact ⟨by exact_mod_cast Option.some.inj (hline'.symm.trans hk), hbuiltIn.not_isContainer⟩
      · obtain ⟨j, hj, hplaced⟩ := hinside.line
        obtain rfl : l = j := by exact_mod_cast Option.some.inj (hline'.symm.trans hj)
        exact hplaced.imp_left fun hsame => ⟨hsame.1, hbuiltIn.not_isContainer⟩
    · obtain ⟨hlist, _⟩ | ⟨_, htext⟩ := hbuiltIn
      · exact Content.isContainer_of_isList hlist
      · rw [Content.role?_eq_item_iff.mpr hitem] at htext
        cases htext
  | inside hencloses =>
    have houter := hwithin hencloses.isContainer
    exact ⟨hmem', ⟨l, hline, .inr (houter.encloses hk hencloses)⟩, fun _ => ⟨node, hmem, hchild, houter⟩⟩
  | item hencloses hlast hnot =>
    refine ⟨hmem', ⟨l, hline, .inr ?_⟩, fun hitem => by simp [hnot] at hitem⟩
    obtain rfl | hinside := hnode
    · simp [Content.not_isContainer_of_isItem hlast.isItem] at hisContainer
    · obtain ⟨list, hlist, hnode, houter⟩ := hinside.list hlast.isItem
      obtain rfl := Option.some.inj
        (family_unique (.children hlist) (.children hencloses.mem) hnode hlast.mem).1
      exact houter.encloses hk hencloses

/-- What is below a container is on lines that the container encloses, its built-in child apart. -/
theorem inside_of_below {k : Nat} {container : Node}
    (hcontainer : container ∈ Node.preorderForest (draft first body).forest)
    (hisContainer : container.content.isContainer) (hk : container.mark.line? = some (k : Int)) {node : Node}
    (hnode : node ∈ Node.preorderForest container.children) :
    Inside (first :: body) (draft first body).forest k container node := by
  have hall := Node.forall_mem_preorder
    (P := fun node => node = container ∨ Inside (first :: body) (draft first body).forest k container node)
    (fun node hnode child hchild => .inr (inside_child hcontainer hisContainer hk hnode hchild)) (.inl rfl)
    (Node.mem_preorder_iff.mpr (.inr hnode))
  refine hall.resolve_left ?_
  rintro rfl
  exact not_mem_below hcontainer hnode

end Below

end Document

end ViewMarkup
