import ViewMarkup.Proofs.Document.Contents
import ViewMarkup.Proofs.Line.Names
import ViewMarkup.Proofs.React.Effects

namespace ViewMarkup

namespace React

/-- A tag opens at a column of an expression: a `<` stands there, and the tag is the whole run of word
characters behind it and starts with an ASCII capital. -/
def OpensAt (raw : Text) (column : Nat) (tag : Text) : Prop :=
  ∃ after, raw.drop column = '<' :: (tag ++ after) ∧ (∃ c ∈ tag.head?, c.isUpper) ∧ (∀ c ∈ tag, isWord c) ∧
    ∀ c ∈ after.head?, isWord c = false

/-- The expression in the `element` prop of a component. -/
def elementExpression? : Content → Option Text
  | .component _ props =>
    match props.lookup "element".toList with
    | some (.expression raw) => some raw
    | _ => none
  | _ => none

/-- The tags that a node refers to, with their places in the node: the name of a component comes first, at
place zero, and every tag that opens in its `element` prop is at the place behind its `<`. -/
inductive RefersAt : Content → Nat → Text → Prop where
  | name (name : Text) (props : Fields Value) : RefersAt (.component name props) 0 name
  | element {content : Content} {raw : Text} (hraw : elementExpression? content = some raw) {column : Nat}
      {tag : Text} (hopens : OpensAt raw column tag) : RefersAt content (column + 1) tag

end React

namespace Document

/-- A tag is referred to at a place: the number of a node, each before what is below it, and the place in the
node. -/
def RefersAt (document : Document) (place : Nat × Nat) (tag : Text) : Prop :=
  ∃ content, document.contents[place.1]? = some content ∧ React.RefersAt content place.2 tag

/-- A tag is referred to somewhere. -/
def Refers (document : Document) (tag : Text) : Prop :=
  ∃ place, document.RefersAt place tag

/-- A tag is referred to before another: at a place that comes before every place of the other. -/
def RefersFirst (document : Document) (first second : Text) : Prop :=
  ∃ place, document.RefersAt place first ∧
    ∀ other, document.RefersAt other second → Prod.Lex (· < ·) (· < ·) place other

end Document

theorem isAlpha_of_isUpper {c : Char} (hupper : c.isUpper) : c.isAlpha :=
  Bool.or_eq_true_iff.mpr (.inl hupper)

namespace React

/-- The tag that opens at the start of a text. -/
def openedTag? : Text → Option Text
  | '<' :: c :: rest => if c.isUpper then some (c :: rest.takeWhile isWord) else none
  | _ => none

theorem openedTags_cons (c : Char) (rest : Text) :
    openedTags (c :: rest) = (openedTag? (c :: rest)).toList ++ openedTags rest := by
  rw [openedTags.eq_def]
  dsimp only
  split
  · rw [openedTag?]
    split <;> rfl
  · rename_i hnot
    rw [openedTag?.eq_2 _ fun d tail heq => ?_]
    · rfl
    · obtain ⟨rfl, rfl⟩ := List.cons.inj heq
      exact hnot d tail rfl rfl

theorem openedTag?_eq_some_iff {t tag : Text} : openedTag? t = some tag ↔ OpensAt t 0 tag := by
  unfold OpensAt
  rw [List.drop_zero]
  constructor
  · intro hopened
    unfold openedTag? at hopened
    split at hopened
    · rename_i c rest
      split at hopened
      · rename_i hupper
        cases hopened
        refine ⟨rest.dropWhile isWord, ?_, ⟨c, rfl, hupper⟩, ?_, fun d hd => ?_⟩
        · rw [List.cons_append, List.takeWhile_append_dropWhile]
        · exact List.forall_mem_cons.mpr ⟨isWord_of_isAlpha (isAlpha_of_isUpper hupper), fun d hd => List.mem_takeWhile_imp hd⟩
        · have hstop := List.head?_dropWhile_not isWord rest
          rw [Option.mem_def.mp hd] at hstop
          exact hstop
      · cases hopened
    · cases hopened
  · rintro ⟨after, rfl, ⟨c, hhead, hupper⟩, hword, hafter⟩
    obtain ⟨rest, rfl⟩ := List.head?_eq_some_iff.mp hhead
    have hstop : after.takeWhile isWord = [] := by
      cases after with
      | nil => rfl
      | cons d after => exact List.takeWhile_cons_of_neg (by simp [hafter d rfl])
    rw [List.cons_append, openedTag?, if_pos hupper,
      List.takeWhile_append_of_pos (List.forall_mem_cons.mp hword).2, hstop, List.append_nil]

/-- The tags that open in an expression, each with its place. -/
def openings (raw : Text) : List (Nat × Text) :=
  (List.range raw.length).filterMap fun column => (openedTag? (raw.drop column)).map fun tag => (column + 1, tag)

theorem map_snd_openings (raw : Text) : (openings raw).map Prod.snd = openedTags raw := by
  have hplaces : (openings raw).map Prod.snd =
      (List.range raw.length).filterMap fun column => openedTag? (raw.drop column) := by
    simp [openings, List.map_filterMap, Function.comp_def]
  rw [hplaces]
  clear hplaces
  induction raw with
  | nil => rfl
  | cons c rest ih =>
    rw [openedTags_cons, List.length_cons, List.range_succ_eq_map, List.filterMap_cons, List.filterMap_map, ← ih,
      List.drop_zero]
    cases openedTag? (c :: rest) <;> rfl

theorem mem_openings {raw : Text} {place : Nat} {tag : Text} :
    (place, tag) ∈ openings raw ↔ ∃ column, place = column + 1 ∧ OpensAt raw column tag := by
  have hat (column : Nat) : OpensAt raw column tag ↔ openedTag? (raw.drop column) = some tag := by
    rw [openedTag?_eq_some_iff, OpensAt, OpensAt, List.drop_zero]
  simp only [openings, List.mem_filterMap, List.mem_range, Option.map_eq_some_iff, Prod.mk.injEq, hat]
  constructor
  · rintro ⟨column, _, _, hopened, rfl, rfl⟩
    exact ⟨column, rfl, hopened⟩
  · rintro ⟨column, rfl, hopened⟩
    refine ⟨column, ?_, tag, hopened, rfl, rfl⟩
    by_contra hbeyond
    rw [List.drop_of_length_le (Nat.le_of_not_lt hbeyond)] at hopened
    cases hopened

theorem pairwise_openings (raw : Text) : (openings raw).Pairwise fun first second => first.1 < second.1 := by
  refine List.pairwise_filterMap.mpr (List.pairwise_lt_range.imp ?_)
  intro column column' hlt first hfirst second hsecond
  obtain ⟨_, _, rfl⟩ := Option.map_eq_some_iff.mp hfirst
  obtain ⟨_, _, rfl⟩ := Option.map_eq_some_iff.mp hsecond
  exact Nat.succ_lt_succ hlt

/-- The name of a component. -/
def componentName? : Content → Option Text
  | .component name _ => some name
  | _ => none

/-- The tags that a node refers to, each with its place. -/
def references (content : Content) : List (Nat × Text) :=
  (componentName? content).toList.map (0, ·) ++ (elementExpression? content).toList.flatMap openings

theorem map_snd_references (content : Content) : (references content).map Prod.snd = referredNames content := by
  cases content with
  | component name props =>
    simp only [references, componentName?, elementExpression?, referredNames, List.map_append]
    cases props.lookup "element".toList with
    | none => rfl
    | some value =>
      cases value with
      | expression raw => simp [map_snd_openings]
      | literal value => rfl
  | _ => rfl

theorem mem_references {content : Content} {place : Nat} {tag : Text} :
    (place, tag) ∈ references content ↔ RefersAt content place tag := by
  simp only [references, List.mem_append, List.mem_map, List.mem_flatMap, Option.mem_toList, Prod.mk.injEq,
    mem_openings]
  constructor
  · rintro (⟨name, hname, rfl, rfl⟩ | ⟨raw, hraw, column, rfl, hopens⟩)
    · cases content with
      | component name' props =>
        cases hname
        exact .name _ props
      | _ => cases hname
    · exact .element hraw hopens
  · intro hrefers
    cases hrefers with
    | name name props => exact .inl ⟨_, rfl, rfl, rfl⟩
    | element hraw hopens => exact .inr ⟨_, hraw, _, rfl, hopens⟩

theorem pairwise_references (content : Content) :
    (references content).Pairwise fun first second => first.1 < second.1 := by
  refine List.pairwise_append.mpr ⟨?_, ?_, ?_⟩
  · cases componentName? content <;> simp
  · cases elementExpression? content with
    | none => exact .nil
    | some raw => simpa using pairwise_openings raw
  · intro first hfirst second hsecond
    obtain ⟨_, _, rfl⟩ := List.mem_map.mp hfirst
    obtain ⟨_, _, hopening⟩ := List.mem_flatMap.mp hsecond
    obtain ⟨column, hcolumn, _⟩ := mem_openings.mp hopening
    exact hcolumn ▸ Nat.succ_pos column

end React

namespace Document

/-- The tags that a document refers to, each with its place, in order. -/
def references (document : Document) : List ((Nat × Nat) × Text) :=
  document.contents.zipIdx.flatMap fun entry =>
    (React.references entry.1).map fun reference => ((entry.2, reference.1), reference.2)

theorem mem_references {document : Document} {place : Nat × Nat} {tag : Text} :
    (place, tag) ∈ document.references ↔ document.RefersAt place tag := by
  obtain ⟨index, column⟩ := place
  simp only [references, List.mem_flatMap, List.mem_map, List.mem_zipIdx_iff_getElem?, RefersAt]
  constructor
  · rintro ⟨⟨content, _⟩, hcontent, ⟨_, _⟩, hreference, heq⟩
    cases heq
    exact ⟨content, hcontent, React.mem_references.mp hreference⟩
  · rintro ⟨content, hcontent, hrefers⟩
    exact ⟨(content, index), hcontent, (column, tag), React.mem_references.mpr hrefers, rfl⟩

theorem pairwise_references (document : Document) :
    document.references.Pairwise fun first second => Prod.Lex (· < ·) (· < ·) first.1 second.1 := by
  refine List.pairwise_flatMap.mpr ⟨fun entry _ => ?_, ?_⟩
  · exact List.pairwise_map.mpr ((React.pairwise_references entry.1).imp fun hlt => .right _ hlt)
  · have hindices : document.contents.zipIdx.Pairwise fun first second => first.2 < second.2 := by
      refine List.pairwise_map.mp ?_
      rw [List.zipIdx_map_snd]
      exact List.pairwise_lt_range' 1
    refine hindices.imp fun hlt first hfirst second hsecond => ?_
    obtain ⟨_, _, rfl⟩ := List.mem_map.mp hfirst
    obtain ⟨_, _, rfl⟩ := List.mem_map.mp hsecond
    exact .left _ _ hlt

end Document

namespace React

/-- The names that are gathered are the references without their places, each once. -/
theorem componentNames_eq (document : Document) :
    componentNames document.nodes = (document.references.map Prod.snd).eraseDups := by
  have hcontents : ((Node.preorderForest document.nodes).flatMap fun node => referredNames node.content) =
      document.contents.flatMap referredNames := by
    rw [Document.contents, List.flatMap_map]
  have hplaces : document.references.map Prod.snd = document.contents.flatMap referredNames := by
    simp only [Document.references, List.map_flatMap, List.map_map, Function.comp_def, map_snd_references]
    rw [← List.flatMap_map Prod.fst, List.zipIdx_map_fst]
  rw [componentNames, hcontents, hplaces]

theorem mem_componentNames {document : Document} {tag : Text} :
    tag ∈ componentNames document.nodes ↔ document.Refers tag := by
  rw [componentNames_eq, List.mem_eraseDups, List.mem_map]
  constructor
  · rintro ⟨⟨place, _⟩, hreference, rfl⟩
    exact ⟨place, Document.mem_references.mp hreference⟩
  · rintro ⟨place, hrefers⟩
    exact ⟨(place, tag), Document.mem_references.mpr hrefers, rfl⟩

instance (document : Document) (tag : Text) : Decidable (document.Refers tag) :=
  decidable_of_iff ((componentNames document.nodes).contains tag) (List.contains_iff_mem.trans mem_componentNames)

theorem nodup_componentNames (document : Document) : (componentNames document.nodes).Nodup :=
  nodup_eraseDups _

/-- Names are gathered in the order in which they are first referred to. -/
theorem pairwise_componentNames (document : Document) :
    (componentNames document.nodes).Pairwise document.RefersFirst := by
  rw [componentNames_eq]
  refine (pairwise_eraseDups document.pairwise_references).imp ?_
  rintro first second ⟨place, hfirst, hbefore⟩
  exact ⟨place, Document.mem_references.mp hfirst, fun other hother =>
    hbefore other (Document.mem_references.mpr hother)⟩

end React

namespace Document

theorem named_content (t : Text) : ∀ content ∈ (ofText t).contents, content.Named := by
  intro content hcontent
  obtain ⟨node, hnode, rfl⟩ := List.mem_map.mp hcontent
  have hhead (content : Content) : content.head.Named ↔ content.Named := by cases content <;> rfl
  refine (hhead _).mp (forall_content ?_ node hnode)
  intro raw _ line _ reading hread node hnode below hbelow
  exact (hhead _).mpr (line.read?_named hread node hnode below hbelow)

/-- Every tag that a document refers to is a name. -/
theorem Refers.isName {t tag : Text} (hrefers : (ofText t).Refers tag) : Text.IsName tag := by
  obtain ⟨⟨index, column⟩, content, hcontent, hrefers⟩ := hrefers
  have hnamed := named_content t content (List.mem_of_getElem? hcontent)
  cases hrefers with
  | name => exact hnamed
  | element _ hopens =>
    obtain ⟨_, _, ⟨c, hhead, hupper⟩, hword, _⟩ := hopens
    exact ⟨⟨c, hhead, Bool.or_eq_true_iff.mpr (.inl (isAlpha_of_isUpper hupper))⟩, hword⟩

end Document

end ViewMarkup
