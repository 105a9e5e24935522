import ViewMarkup.Document.Draft
import ViewMarkup.Proofs.Line.Outcome
import ViewMarkup.Proofs.Node.Preorder

namespace ViewMarkup

/-- What a node may hold: nothing, one piece of text, blocks, or the items of a list. Text and items
are apart from leaves and branches because only one kind of node may hold them. -/
inductive Role where
  | leaf
  | text
  | emphasis
  | branch
  | item
  | list
  deriving DecidableEq, Repr

namespace Content

/-- The role of a content, if it may occur in a document. No component has a reserved name. -/
def role? : Content → Option Role
  | element tag _ _ =>
    if tag = "ul".toList then some .list
    else if tag = "li".toList then some .item
    else if tag ∈ plainTags then some .leaf
    else if tag ∈ emphasisTags then some .emphasis
    else none
  | component name _ => if name ∈ reserved then none else some .branch
  | loop .. | guard .. => some .branch
  | data .. | state .. | fetch .. | script .. | comment .. => some .leaf
  | text .. => some .text
  | expression .. | unknown => none

/-- Content that may stand below any branch: not text, which belongs to emphasis, and not an item,
which belongs to a list. -/
def IsBlock (content : Content) : Prop :=
  content.role? ≠ some .text ∧ content.role? ≠ some .item

theorem role?_eq_list_iff {content : Content} : content.role? = some .list ↔ content.isList := by
  cases content with
  | element tag value? attributes =>
    simp only [role?, isList, beq_iff_eq]
    repeat' split
    all_goals simp_all
  | component name props =>
    simp only [role?, isList]
    split <;> simp
  | _ => simp [role?, isList]

theorem role?_eq_item_iff {content : Content} : content.role? = some .item ↔ content.isItem := by
  cases content with
  | element tag value? attributes =>
    simp only [role?, isItem, beq_iff_eq]
    repeat' split
    all_goals simp_all
  | component name props =>
    simp only [role?, isItem]
    split <;> simp
  | _ => simp [role?, isItem]

/-- Apart from scripts, containers are lists and branches. -/
theorem role?_of_isContainer {content : Content} {role : Role} (hrole : content.role? = some role)
    (hcontainer : content.isContainer) (hscript : content.isScript = false) :
    role = .branch ∨ role = .list := by
  cases content with
  | element tag value? attributes =>
    have hlist : (element tag value? attributes).role? = some .list := role?_eq_list_iff.mpr hcontainer
    rw [hrole] at hlist
    exact .inr (Option.some.inj hlist)
  | component name props =>
    simp only [role?] at hrole
    split at hrole
    · cases hrole
    · cases hrole
      exact .inl rfl
  | loop | guard =>
    cases hrole
    exact .inl rfl
  | script signature body => cases hscript
  | _ => cases hcontainer

theorem isBlock_of_isContainer {content : Content} (hcontainer : content.isContainer) :
    content.IsBlock := by
  cases content with
  | element tag value? attributes =>
    have hlist : (element tag value? attributes).role? = some .list := role?_eq_list_iff.mpr hcontainer
    simp [IsBlock, hlist]
  | component name props =>
    simp only [IsBlock, role?]
    split <;> simp
  | loop | guard | script => simp [IsBlock, role?]
  | _ => cases hcontainer

theorem not_isContainer_of_isItem {content : Content} (hitem : content.isItem) :
    content.isContainer = false := by
  cases hcontainer : content.isContainer with
  | false => rfl
  | true => exact absurd (role?_eq_item_iff.mpr hitem) (isBlock_of_isContainer hcontainer).2

theorem isContainer_of_isList {content : Content} (hlist : content.isList) : content.isContainer := by
  cases content with
  | element => exact hlist
  | _ => cases hlist

end Content

namespace Node

@[simp] theorem content_append (child node : Node) : (Node.append child node).content = node.content := by
  cases node
  rfl

@[simp] theorem content_extendTo (line column : Int) (node : Node) :
    (node.extendTo line column).content = node.content := by
  cases node
  rfl

@[simp] theorem content_place (span : Span) (node : Node) : (node.place span).content = node.content := by
  cases node
  rfl

/-- The form of a placed node and of everything below it. -/
inductive Shaped : Node → Prop where
  | leaf {content : Content} (hrole : content.role? = some .leaf) (span : Span) :
      Shaped (.mk content (some span) [])
  | text (value : Inline) (span : Span) : Shaped (.mk (.text value) (some span) [])
  | emphasis {content : Content} (hrole : content.role? = some .emphasis) (span : Span)
      (value : Inline) (inner : Span) :
      Shaped (.mk content (some span) [.mk (.text value) (some inner) []])
  | branch {content : Content} (hrole : content.role? = some .branch ∨ content.role? = some .item)
      (span : Span) {children : List Node} (hchildren : ∀ child ∈ children, Shaped child)
      (hblocks : ∀ child ∈ children, child.content.IsBlock) :
      Shaped (.mk content (some span) children)
  | list {content : Content} (hrole : content.role? = some .list) (span : Span) {children : List Node}
      (hne : children ≠ []) (hchildren : ∀ child ∈ children, Shaped child)
      (hitems : ∀ child ∈ children, child.content.role? = some .item) :
      Shaped (.mk content (some span) children)

theorem Shaped.child {node child : Node} (hshaped : node.Shaped) (hchild : child ∈ node.children) :
    child.Shaped := by
  cases hshaped with
  | leaf | text => cases hchild
  | emphasis hrole span value inner =>
    obtain rfl := List.mem_singleton.mp hchild
    exact .text value inner
  | branch hrole span hchildren hblocks => exact hchildren child hchild
  | list hrole span hne hchildren hitems => exact hchildren child hchild

theorem Shaped.exists_role {node : Node} (hshaped : node.Shaped) : ∃ role, node.content.role? = some role := by
  cases hshaped with
  | leaf hrole | emphasis hrole | list hrole => exact ⟨_, hrole⟩
  | text => exact ⟨_, rfl⟩
  | branch hrole =>
    obtain hbranch | hitem := hrole
    · exact ⟨_, hbranch⟩
    · exact ⟨_, hitem⟩

/-- A list holds items, at least one. -/
theorem Shaped.items {node : Node} (hshaped : node.Shaped) (hlist : node.content.role? = some .list) :
    node.children ≠ [] ∧ ∀ child ∈ node.children, child.content.role? = some .item := by
  cases hshaped with
  | leaf hrole | emphasis hrole => simp [Node.content, hrole] at hlist
  | text => cases hlist
  | branch hrole => obtain hrole | hrole := hrole <;> simp [Node.content, hrole] at hlist
  | list _ _ hne _ hitems => exact ⟨hne, hitems⟩

/-- The last item of a list may be exchanged for another item. -/
theorem Shaped.replace_last {content : Content} {span : Span} {items : List Node} {last last' : Node}
    (hshaped : (Node.mk content (some span) (items ++ [last])).Shaped)
    (hlist : content.role? = some .list) (hlast : last'.Shaped)
    (hitem : last'.content.role? = some .item) :
    (Node.mk content (some span) (items ++ [last'])).Shaped := by
  have hbelow : ∀ child ∈ items ++ [last], child.Shaped := fun _ => hshaped.child
  have hitems : ∀ child ∈ items ++ [last], child.content.role? = some .item := (hshaped.items hlist).2
  refine .list hlist span (by simp) ?_ ?_
  · exact List.forall_mem_append.mpr
      ⟨(List.forall_mem_append.mp hbelow).1, List.forall_mem_singleton.mpr hlast⟩
  · exact List.forall_mem_append.mpr
      ⟨(List.forall_mem_append.mp hitems).1, List.forall_mem_singleton.mpr hitem⟩

theorem Shaped.extendTo {node : Node} (hshaped : node.Shaped) (line column : Int) :
    (node.extendTo line column).Shaped := by
  cases hshaped with
  | leaf hrole span => exact .leaf hrole _
  | text value span => exact .text value _
  | emphasis hrole span value inner => exact .emphasis hrole _ value inner
  | branch hrole span hchildren hblocks => exact .branch hrole _ hchildren hblocks
  | list hrole span hne hchildren hitems => exact .list hrole _ hne hchildren hitems

/-- A branch takes any further block. -/
theorem Shaped.append {node child : Node} (hshaped : node.Shaped)
    (hrole : node.content.role? = some .branch ∨ node.content.role? = some .item)
    (hchild : child.Shaped) (hblock : child.content.IsBlock) : (Node.append child node).Shaped := by
  cases hshaped with
  | leaf hleaf => simp [Node.content, hleaf] at hrole
  | text value => simp [Node.content, Content.role?] at hrole
  | emphasis hemphasis => simp [Node.content, hemphasis] at hrole
  | branch _ span hchildren hblocks =>
    exact Shaped.branch hrole span
      (List.forall_mem_append.mpr ⟨hchildren, List.forall_mem_singleton.mpr hchild⟩)
      (List.forall_mem_append.mpr ⟨hblocks, List.forall_mem_singleton.mpr hblock⟩)
  | list hlist => simp [Node.content, hlist] at hrole

theorem role?_of_plainTag {tag : Text} (htag : tag ∈ plainTags) (value? : Option Inline)
    (attributes : Fields Inline) : (Content.element tag value? attributes).role? = some .leaf := by
  have hlist : tag ≠ "ul".toList := by
    rintro rfl
    revert htag
    decide
  have hitem : tag ≠ "li".toList := by
    rintro rfl
    revert htag
    decide
  simp only [Content.role?, if_neg hlist, if_neg hitem, if_pos htag]

theorem role?_of_emphasisTag {tag : Text} (htag : tag ∈ emphasisTags) (value? : Option Inline)
    (attributes : Fields Inline) : (Content.element tag value? attributes).role? = some .emphasis := by
  simp only [emphasisTags, List.map_cons, List.map_nil, List.mem_cons, List.not_mem_nil, or_false] at htag
  obtain rfl | rfl | rfl := htag <;> rfl

/-- A node that was read from a line has one of the shapes as soon as it is placed. -/
theorem Fresh.place_shaped {inList : Bool} {node : Node} (hfresh : node.Fresh inList) (span : Span) :
    (node.place span).Shaped := by
  cases hfresh with
  | @plain content hplain =>
    cases content with
    | component name props =>
      have hrole : (Content.component name props).role? = some .branch := if_neg hplain
      exact .branch (.inl hrole) span (by simp) (by simp)
    | loop | guard => exact .branch (.inl rfl) span (by simp) (by simp)
    | data | state | fetch | script | comment => exact .leaf rfl span
    | element | text | expression | unknown => exact hplain.elim
  | prose hprose =>
    cases hprose with
    | plain htag value attributes => exact .leaf (role?_of_plainTag htag value attributes) span
    | item value attributes hlist => exact .branch (.inr rfl) span (by simp) (by simp)
    | list value attributes hlist =>
      refine .list rfl span (List.cons_ne_nil _ _) ?_ ?_
      · exact List.forall_mem_singleton.mpr (.branch (.inr rfl) span (by simp) (by simp))
      · exact List.forall_mem_singleton.mpr rfl
    | emphasis htag label attributes =>
      exact .emphasis (role?_of_emphasisTag htag none attributes) span _ span

/-- A node that was read from a line may stand anywhere, unless it continues an open list. -/
theorem Fresh.isBlock_or_item {inList : Bool} {node : Node} (hfresh : node.Fresh inList) :
    node.content.IsBlock ∨ node.content.role? = some .item ∧ inList = true := by
  cases hfresh with
  | @plain content hplain =>
    left
    cases content with
    | component name props =>
      have hrole : (Content.component name props).role? = some .branch := if_neg hplain
      simp [Node.leaf, Node.content, Content.IsBlock, hrole]
    | loop | guard | data | state | fetch | script | comment =>
      simp [Node.leaf, Node.content, Content.IsBlock, Content.role?]
    | element | text | expression | unknown => exact hplain.elim
  | prose hprose =>
    cases hprose with
    | plain htag value attributes =>
      left
      simp [Node.leaf, Node.content, Content.IsBlock, role?_of_plainTag htag]
    | item value attributes hlist => exact .inr ⟨rfl, hlist⟩
    | list value attributes hlist =>
      left
      simp [Node.content, Content.IsBlock, Content.role?]
    | emphasis htag label attributes =>
      left
      simp [ViewMarkup.emphasis, Node.content, Content.IsBlock, role?_of_emphasisTag htag]

end Node

end ViewMarkup
