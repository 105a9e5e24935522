import ViewMarkup.Proofs.Line.Outcome
import ViewMarkup.Proofs.Node.Preorder
import ViewMarkup.Proofs.Property.Tokens
import ViewMarkup.Proofs.Text.Scan
import ViewMarkup.Proofs.Value.Braced

namespace ViewMarkup

/-- Text or an expression on one line. -/
def Inline.OneLine : Inline → Prop
  | expression raw => '\n' ∉ raw
  | text value => '\n' ∉ value

/-- A value on one line; a literal is always written on one line. -/
def Value.OneLine : Value → Prop
  | expression raw => '\n' ∉ raw
  | literal _ => True

/-- Content whose texts have no line feed, as far as they are part of the markup. -/
def Content.OneLine : Content → Prop
  | element tag value? attributes =>
    '\n' ∉ tag ∧ (∀ value ∈ value?, value.OneLine) ∧ ∀ field ∈ attributes, '\n' ∉ field.1 ∧ field.2.OneLine
  | component name props => '\n' ∉ name ∧ ∀ field ∈ props, '\n' ∉ field.1 ∧ field.2.OneLine
  | loop item collection => '\n' ∉ item ∧ '\n' ∉ collection
  | guard condition => '\n' ∉ condition
  | comment remark => '\n' ∉ remark
  | text value => value.OneLine
  | expression raw => '\n' ∉ raw
  | _ => True

namespace Fields

variable {α : Type} {field : Text × α}

theorem mem_put {name : Text} {value : α} {fields : Fields α} (hfield : field ∈ put name value fields) :
    field = (name, value) ∨ field ∈ fields := by
  fun_induction put name value fields with
  | case1 => exact .inl (List.mem_singleton.mp hfield)
  | case2 old fields =>
    obtain rfl | hfield := List.mem_cons.mp hfield
    · exact .inl rfl
    · exact .inr (List.mem_cons_of_mem _ hfield)
  | case3 other old fields hother ih =>
    obtain rfl | hfield := List.mem_cons.mp hfield
    · exact .inr List.mem_cons_self
    · exact (ih hfield).imp_right (List.mem_cons_of_mem _)

theorem mem_foldl_put {pairs : List (Text × α)} {fields : Fields α}
    (hfield : field ∈ pairs.foldl (fun fields pair => put pair.1 pair.2 fields) fields) :
    field ∈ fields ∨ field ∈ pairs := by
  induction pairs generalizing fields with
  | nil => exact .inl hfield
  | cons pair pairs ih =>
    obtain hput | hrest := ih hfield
    · obtain rfl | hold := mem_put hput
      · exact .inr List.mem_cons_self
      · exact .inl hold
    · exact .inr (List.mem_cons_of_mem _ hrest)

theorem mem_ofPairs {pairs : List (Text × α)} (hfield : field ∈ ofPairs pairs) : field ∈ pairs :=
  (mem_foldl_put hfield).resolve_left List.not_mem_nil

end Fields

theorem subset_of_spanAt? {t body after : Text} (hspan : spanAt? t = some (body, after)) : body ⊆ t := by
  obtain ⟨rfl, -⟩ := eq_of_spanAt? hspan
  exact List.subset_cons_of_subset _ (List.subset_append_left _ _)

theorem subset_of_firstSpan? {t raw : Text} (hspan : firstSpan? t = some raw) : raw ⊆ t := by
  fun_induction firstSpan? t with
  | case1 => cases hspan
  | case2 c rest body after hat =>
    cases hspan
    exact fun d hd => subset_of_spanAt? hat ((Text.trim_isInfix body).subset hd)
  | case3 c rest hat ih => exact List.subset_cons_of_subset c (ih hspan)

theorem subset_of_braced? {t raw : Text} (hbraced : braced? t = some raw) : raw ⊆ t := by
  unfold braced? at hbraced
  split at hbraced
  · rename_i body after hspan
    split at hbraced
    · cases hbraced
      exact fun d hd => subset_of_spanAt? hspan ((Text.trim_isInfix body).subset hd)
    · cases hbraced
  · cases hbraced

theorem Inline.ofText_oneLine {t : Text} (ht : '\n' ∉ t) : (ofText t).OneLine := by
  unfold ofText
  split
  · rename_i raw hbraced
    exact fun hmem => ht (subset_of_braced? hbraced hmem)
  · exact ht

theorem Value.property_oneLine {t : Text} (ht : '\n' ∉ t) : (property t).OneLine := by
  unfold property
  split
  · rename_i raw hbraced
    exact fun hmem => ht (subset_of_braced? hbraced hmem)
  · trivial
  · repeat' split
    all_goals trivial

theorem PropertyToken.property?_oneLine {token : PropertyToken} (htoken : '\n' ∉ token.text)
    {field : Text × Value} (hfield : token.property? = some field) : '\n' ∉ field.1 ∧ field.2.OneLine := by
  unfold property? at hfield
  split at hfield
  · rename_i key value hcut
    obtain ⟨hkey, hvalue⟩ := Text.subset_of_cut hcut
    split at hfield
    · cases hfield
    · cases hfield
      have htrim (u : Text) (hu : u ⊆ token.text) : '\n' ∉ Text.trim u :=
        Text.not_mem_trim fun hmem => htoken (hu hmem)
      exact ⟨htrim key hkey, Value.property_oneLine (htrim value (hvalue value rfl))⟩
  · cases hfield

namespace Node

theorem leaf_oneLine {content : Content} (hcontent : content.OneLine) :
    ∀ below ∈ (leaf content).preorder, below.content.OneLine := by
  intro below hbelow
  obtain rfl := List.mem_singleton.mp hbelow
  exact hcontent

theorem emphasis_oneLine {tag label : Text} {attributes : Fields Inline} (htag : '\n' ∉ tag)
    (hlabel : '\n' ∉ label) (hattributes : ∀ field ∈ attributes, '\n' ∉ field.1 ∧ field.2.OneLine) :
    ∀ below ∈ (emphasis tag label attributes).preorder, below.content.OneLine := by
  intro below hbelow
  obtain rfl | hbelow := mem_preorder_iff.mp hbelow
  · exact ⟨htag, by simp, hattributes⟩
  · obtain ⟨child, hchild, hbelow⟩ := mem_preorderForest.mp hbelow
    obtain rfl := List.mem_singleton.mp hchild
    have htext : (Content.text (.ofText label)).OneLine := Inline.ofText_oneLine hlabel
    exact leaf_oneLine htext below hbelow

end Node

theorem loop?_oneLine {t : Text} {content : Content} (hread : loop? t = some content) : content.OneLine := by
  simp only [loop?, Option.bind_eq_bind, Option.bind_eq_some_iff] at hread
  obtain ⟨_, _, ⟨item, _⟩, hword, _, _, _, _, collection, _, hread⟩ := hread
  split at hread
  · rename_i hcollection
    cases hread
    constructor
    · intro hmem
      exact absurd ((Text.eq_of_word? hword).2 _ hmem) (by decide)
    · intro hmem
      exact absurd (List.all_eq_true.mp hcollection.2 _ hmem) (by decide)
  · cases hread

theorem guard?_oneLine {t : Text} {content : Content} (hread : guard? t = some content) : content.OneLine := by
  simp only [guard?, Option.bind_eq_bind, Option.bind_eq_some_iff] at hread
  obtain ⟨_, _, condition, ⟨_, _, hcondition⟩, hread⟩ := hread
  cases hread
  have hline := Text.newline_not_mem_of_oneLine? hcondition
  cases hspan : firstSpan? condition with
  | none => exact hline
  | some raw => exact fun hmem => hline (subset_of_firstSpan? hspan hmem)

theorem script?_oneLine {t : Text} {content : Content} (hread : script? t = some content) : content.OneLine := by
  simp only [script?, Option.bind_eq_bind, Option.bind_eq_some_iff] at hread
  obtain ⟨rest, _, hread⟩ := hread
  split at hread
  · cases hread
    trivial
  · obtain ⟨signature, _, hread⟩ := Option.bind_eq_some_iff.mp hread
    cases hread
    trivial

theorem componentParts?_oneLine {t name props : Text} (hparts : componentParts? t = some (name, props)) :
    '\n' ∉ name ∧ '\n' ∉ props := by
  simp only [componentParts?, Option.bind_eq_bind, Option.bind_eq_some_iff] at hparts
  obtain ⟨_, _, ⟨name', rest⟩, hname, hparts⟩ := hparts
  have hword : '\n' ∉ name' := fun hmem => absurd ((Text.eq_of_name? hname).2 _ hmem) (by decide)
  split at hparts
  · cases hparts
    exact ⟨hword, List.not_mem_nil⟩
  · obtain ⟨props', _, hparts⟩ := Option.bind_eq_some_iff.mp hparts
    split at hparts
    · cases hparts
      rename_i hline
      exact ⟨hword, by simpa [Text.isOneLine] using hline⟩
    · cases hparts

theorem SourceLine.component?_oneLine {line : SourceLine} {reading : Reading}
    (hread : line.component? = some reading) :
    ∀ node ∈ reading.node?, ∀ below ∈ node.preorder, below.content.OneLine := by
  obtain ⟨⟨name, props⟩, hparts, rfl⟩ := Option.map_eq_some_iff.mp hread
  obtain ⟨hname, hprops⟩ := componentParts?_oneLine hparts
  rintro node ⟨⟩
  refine Node.leaf_oneLine ⟨hname, fun field hfield => ?_⟩
  obtain ⟨token, htoken, hfield⟩ := List.mem_filterMap.mp (Fields.mem_ofPairs hfield)
  refine token.property?_oneLine (fun hmem => hprops ?_) hfield
  obtain ⟨_, start, _, hstands⟩ := (PropertyToken.pieces_tokens _ props).stands _ (List.mem_map_of_mem htoken)
  exact List.mem_of_mem_drop (hstands.subset hmem)

theorem SourceLine.directive?_oneLine {line : SourceLine} {reading : Reading}
    (hread : line.directive? = some reading) :
    ∀ node ∈ reading.node?, ∀ below ∈ node.preorder, below.content.OneLine := by
  have hcontent {content? : Option Content} (hline : ∀ content, content? = some content → content.OneLine)
      (hsome : (content?.map fun content => Reading.ofNode (.leaf content)) = some reading) :
      ∀ node ∈ reading.node?, ∀ below ∈ node.preorder, below.content.OneLine := by
    obtain ⟨content, hcontent, rfl⟩ := Option.map_eq_some_iff.mp hsome
    rintro node ⟨⟩
    exact Node.leaf_oneLine (hline content hcontent)
  simp only [SourceLine.directive?, Option.orElse_eq_orElse, Option.orElse_eq_or,
    Option.or_eq_some_iff] at hread
  obtain hloop | ⟨_, hguard | ⟨_, hfetch | ⟨_, hscript | ⟨_, hmalformed⟩⟩⟩⟩ := hread
  · exact hcontent (fun _ => loop?_oneLine) hloop
  · exact hcontent (fun _ => guard?_oneLine) hguard
  · obtain ⟨parts, _, rfl⟩ := Option.map_eq_some_iff.mp hfetch
    rintro node ⟨⟩
    exact Node.leaf_oneLine trivial
  · exact hcontent (fun _ => script?_oneLine) hscript
  · split at hmalformed
    · split at hmalformed
      · cases hmalformed
        rintro node ⟨⟩
      · cases hmalformed
    · cases hmalformed

theorem between?_oneLine {mark t label : Text} (hbetween : between? mark t = some label) : '\n' ∉ label := by
  simp only [between?, Option.bind_eq_bind, Option.bind_eq_some_iff] at hbetween
  obtain ⟨_, _, hline⟩ := hbetween
  exact Text.newline_not_mem_of_oneLine? hline

theorem put_oneLine {name : Text} {value : Inline} {attributes : Fields Inline} (hname : '\n' ∉ name)
    (hvalue : value.OneLine) (hattributes : ∀ field ∈ attributes, '\n' ∉ field.1 ∧ field.2.OneLine) :
    ∀ field ∈ Fields.put name value attributes, '\n' ∉ field.1 ∧ field.2.OneLine := by
  intro field hfield
  obtain rfl | hold := Fields.mem_put hfield
  · exact ⟨hname, hvalue⟩
  · exact hattributes field hold

theorem heading?_oneLine {t text : Text} {level : Nat} (hheading : heading? t = some (level, text)) :
    '\n' ∉ text := by
  unfold heading? at hheading
  dsimp only at hheading
  split at hheading
  · cases hheading
  · obtain ⟨text', hline, hpair⟩ := Option.bind_eq_some_iff.mp hheading
    obtain ⟨_, _, hline⟩ := Option.bind_eq_some_iff.mp hline
    cases hpair
    exact Text.newline_not_mem_of_oneLine? hline

theorem element_oneLine {tag text : Text} {attributes : Fields Inline} (htag : '\n' ∉ tag) (htext : '\n' ∉ text)
    (hattributes : ∀ field ∈ attributes, '\n' ∉ field.1 ∧ field.2.OneLine) :
    (Content.element tag (some (.ofText text)) attributes).OneLine := by
  refine ⟨htag, ?_, hattributes⟩
  rintro value ⟨⟩
  exact Inline.ofText_oneLine htext

section Prose

variable {t : Text} (ht : '\n' ∉ t)

include ht

theorem cutLast?_oneLine {c : Char} {before after : Text} (hcut : cutLast? c t = some (before, after)) :
    '\n' ∉ after := by
  unfold cutLast? at hcut
  split at hcut
  · rename_i hreverse
    cases hcut
    rw [List.mem_reverse]
    exact fun hmem => ht (List.mem_reverse.mp ((Text.subset_of_cut hreverse).1 hmem))
  · cases hcut

theorem styleSuffix?_oneLine {content css : Text} (hstyle : styleSuffix? t = some (content, css)) :
    '\n' ∉ content ∧ '\n' ∉ css := by
  simp only [styleSuffix?, Option.bind_eq_bind, Option.bind_eq_some_iff] at hstyle
  obtain ⟨body, hbody, ⟨before, css'⟩, hcut, name, _, hstyle⟩ := hstyle
  obtain rfl := Text.before?_eq_some_iff.mp hbody
  have hcss := cutLast?_oneLine (fun hmem => ht (List.mem_append_left _ hmem)) hcut
  split at hstyle
  · cases hstyle
  split at hstyle
  · rename_i hline
    cases hstyle
    exact ⟨by simpa [Text.isOneLine] using hline, hcss⟩
  · cases hstyle

theorem splitStyle_oneLine : '\n' ∉ (splitStyle t).1 ∧
    ∀ field ∈ (splitStyle t).2, '\n' ∉ field.1 ∧ field.2.OneLine := by
  unfold splitStyle
  split
  · rename_i content css hstyle
    obtain ⟨hcontent, hcss⟩ := styleSuffix?_oneLine ht hstyle
    split
    · exact ⟨ht, List.forall_mem_nil _⟩
    · refine ⟨Text.not_mem_trim hcontent, ?_⟩
      exact List.forall_mem_singleton.mpr ⟨show '\n' ∉ "style".toList by decide, hcss⟩
  · exact ⟨ht, List.forall_mem_nil _⟩

theorem linkParts?_oneLine {label target : Text} (hlink : linkParts? t = some (label, target)) :
    '\n' ∉ label ∧ '\n' ∉ target := by
  simp only [linkParts?, Option.bind_eq_bind, Option.bind_eq_some_iff] at hlink
  obtain ⟨rest, hrest, behind, hbehind, inner, hinner, hlink⟩ := hlink
  obtain rfl := Text.after?_eq_some_iff.mp hrest
  obtain rfl := Text.after?_eq_some_iff.mp hinner
  have hbody : '\n' ∉ rest := fun hmem => ht (List.mem_append_right _ hmem)
  have hlabel : (Text.cut ']' rest).1 ⊆ rest := (List.takeWhile_prefix _).subset
  have hbehind : '\n' ∉ "(".toList ++ inner := fun hmem => hbody ((Text.subset_of_cut rfl).2 _ hbehind hmem)
  have htarget : (Text.cut ')' inner).1 ⊆ inner := (List.takeWhile_prefix _).subset
  split at hlink
  · cases hlink
    exact ⟨fun hmem => hbody (hlabel hmem), fun hmem => hbehind (List.mem_append_right _ (htarget hmem))⟩
  · cases hlink

/-- The texts of prose are parts of the line, and its tags are fixed words. -/
theorem prose?_oneLine {inList : Bool} {node : Node} (hread : prose? t inList = some node) :
    ∀ below ∈ node.preorder, below.content.OneLine := by
  obtain ⟨hrest, hstyle⟩ := splitStyle_oneLine (Text.not_mem_trim ht)
  unfold prose? at hread
  dsimp only at hread
  generalize splitStyle (Text.trim t) = parts at hread hrest hstyle
  split at hread
  · cases hread
  split at hread
  · rename_i label hlabel
    cases hread
    exact Node.emphasis_oneLine (by decide) (between?_oneLine hlabel) hstyle
  split at hread
  · rename_i label hlabel
    cases hread
    exact Node.emphasis_oneLine (by decide) (between?_oneLine hlabel) hstyle
  split at hread
  · rename_i label target hlink
    cases hread
    obtain ⟨hlabel, htarget⟩ := linkParts?_oneLine hrest hlink
    exact Node.emphasis_oneLine (by decide) hlabel (put_oneLine (by decide) (Inline.ofText_oneLine htarget) hstyle)
  split at hread
  · rename_i label target hlink
    cases hread
    obtain ⟨rest, hmark, hlink⟩ := Option.bind_eq_some_iff.mp hlink
    rw [Text.after?_eq_some_iff.mp hmark] at hrest
    obtain ⟨hlabel, htarget⟩ := linkParts?_oneLine (fun hmem => hrest (List.mem_append_right _ hmem)) hlink
    have hsource := put_oneLine (show '\n' ∉ "src".toList by decide) (Inline.ofText_oneLine htarget) hstyle
    exact Node.leaf_oneLine ⟨by decide, by simp, put_oneLine (by decide) (Inline.ofText_oneLine hlabel) hsource⟩
  split at hread
  · rename_i level text hheading
    cases hread
    have htag : ∀ tag ∈ plainTags, '\n' ∉ tag := by decide
    exact Node.leaf_oneLine (element_oneLine (htag _ (heading?_tag hheading)) (heading?_oneLine hheading) hstyle)
  split at hread
  · rename_i text hitem
    simp only [item?, Option.bind_eq_bind, Option.bind_eq_some_iff] at hitem
    obtain ⟨_, _, htext⟩ := hitem
    have hitem := Node.leaf_oneLine
      (element_oneLine (show '\n' ∉ "li".toList by decide) (Text.newline_not_mem_of_oneLine? htext) hstyle)
    cases inList with
    | false =>
      cases hread
      intro below hbelow
      obtain rfl | hbelow := Node.mem_preorder_iff.mp hbelow
      · exact ⟨show '\n' ∉ "ul".toList by decide, by simp, List.forall_mem_nil _⟩
      · obtain ⟨item, hmem, hbelow⟩ := Node.mem_preorderForest.mp hbelow
        obtain rfl := List.mem_singleton.mp hmem
        exact hitem below hbelow
    | true =>
      cases hread
      exact hitem
  cases hread
  refine Node.leaf_oneLine (element_oneLine ?_ hrest hstyle)
  split <;> decide

end Prose

/-- Whatever is read from one line stays on one line. -/
theorem SourceLine.read?_oneLine {line : SourceLine} (hline : '\n' ∉ line.text) {reading : Reading}
    (hread : line.read? = some reading) :
    ∀ node ∈ reading.node?, ∀ below ∈ node.preorder, below.content.OneLine := by
  have htrimmed : '\n' ∉ line.trimmed := Text.not_mem_trim hline
  simp only [SourceLine.read?, Option.orElse_eq_orElse, Option.orElse_eq_or,
    Option.or_eq_some_iff] at hread
  obtain hcomment | ⟨_, hdeclaration | ⟨_, hdirective | ⟨_, hcomponent | ⟨_, hprose⟩⟩⟩⟩ := hread
  · obtain ⟨text, htext, rfl⟩ := Option.map_eq_some_iff.mp hcomment
    rintro node ⟨⟩
    rw [Text.after?_eq_some_iff.mp htext] at htrimmed
    have hremark : (Content.comment (Text.trim text)).OneLine :=
      Text.not_mem_trim fun hmem => htrimmed (List.mem_append_right _ hmem)
    exact Node.leaf_oneLine hremark
  · obtain ⟨parts, _, rfl⟩ := Option.map_eq_some_iff.mp hdeclaration
    cases Value.declared parts.value with
    | ok value =>
      rintro node ⟨⟩
      cases parts.kind <;> exact Node.leaf_oneLine trivial
    | error error => rintro node ⟨⟩
  · exact SourceLine.directive?_oneLine hdirective
  · exact SourceLine.component?_oneLine hcomponent
  · obtain ⟨node, hnode, rfl⟩ := Option.map_eq_some_iff.mp hprose
    rintro _ ⟨⟩
    exact prose?_oneLine htrimmed hnode

end ViewMarkup
