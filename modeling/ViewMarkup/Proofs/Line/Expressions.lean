import ViewMarkup.Proofs.Line.Faults
import ViewMarkup.Proofs.Line.Fetches
import ViewMarkup.Proofs.Line.OneLine
import ViewMarkup.Proofs.Line.Styles
import ViewMarkup.Proofs.Property.Spelling
import ViewMarkup.Proofs.Value.Declared

namespace ViewMarkup

/-- The expression of running text. -/
def Inline.expressions : Inline → List Text
  | expression raw => [raw]
  | text _ => []

/-- The expression of a value. -/
def Value.expressions : Value → List Text
  | expression raw => [raw]
  | literal _ => []

/-- The expressions of content; the condition of a guard is one. -/
def Content.expressions : Content → List Text
  | element _ value? attributes =>
    value?.toList.flatMap Inline.expressions ++ attributes.flatMap fun field => field.2.expressions
  | component _ props => props.flatMap fun field => field.2.expressions
  | data _ value | state _ value => value.expressions
  | guard condition => [condition]
  | fetch request => request.url.expressions
  | text value => value.expressions
  | expression raw => [raw]
  | loop .. | script .. | comment .. | unknown => []

/-- A line writes an expression: between braces, perhaps with blanks around it, or as it is. -/
inductive Text.Writes (line : Text) : Text → Prop
  | braced {body : Text} (hne : body ≠ []) (hopen : '\x7b' ∉ body) (hclose : '\x7d' ∉ body)
      (hspan : '\x7b' :: (body ++ ['\x7d']) <:+: line) : Writes line (Text.trim body)
  | bare {raw : Text} (hne : raw ≠ []) (htrim : Text.trim raw = raw) (hpart : raw <:+: line) : Writes line raw

/-- Braces around nothing but blanks. -/
def Text.IsBlankSpan (t : Text) : Prop :=
  ∃ blanks, blanks ≠ [] ∧ (∀ c ∈ blanks, isBlank c) ∧ t = '\x7b' :: (blanks ++ ['\x7d'])

namespace Text.Writes

variable {line raw : Text}

theorem trim_eq (hwrites : line.Writes raw) : Text.trim raw = raw := by
  cases hwrites with
  | braced => exact Text.trim_trim _
  | bare _ htrim => exact htrim

/-- Only braces around blanks write an empty expression. -/
theorem exists_blankSpan (hwrites : line.Writes []) : ∃ span : Text, span.IsBlankSpan ∧ span <:+: line := by
  generalize hraw : ([] : Text) = raw at hwrites
  cases hwrites with
  | @braced body hne hopen hclose hspan =>
    exact ⟨_, ⟨body, hne, Text.trim_eq_nil_iff.mp hraw.symm, rfl⟩, hspan⟩
  | bare hne => exact absurd hraw.symm hne

theorem of_part {part : Text} (hwrites : part.Writes raw) (hpart : part <:+: line) : line.Writes raw := by
  cases hwrites with
  | braced hne hopen hclose hspan => exact .braced hne hopen hclose (hspan.trans hpart)
  | bare hne htrim hraw => exact .bare hne htrim (hraw.trans hpart)

end Text.Writes

section Values

variable {t raw line : Text}

theorem writes_of_spanAt? {body after : Text} (hspan : spanAt? t = some (body, after)) : t.Writes (Text.trim body) := by
  obtain ⟨rfl, hne, hopen, hclose⟩ := eq_of_spanAt? hspan
  exact .braced hne hopen hclose ⟨[], after, by simp⟩

theorem writes_of_firstSpan? (hspan : firstSpan? t = some raw) : t.Writes raw := by
  fun_induction firstSpan? t with
  | case1 => cases hspan
  | case2 c rest body after hat =>
    cases hspan
    exact writes_of_spanAt? hat
  | case3 c rest hat ih => exact (ih hspan).of_part (List.suffix_cons c rest).isInfix

theorem writes_of_braced? (hbraced : braced? t = some raw) : t.Writes raw := by
  unfold braced? at hbraced
  split at hbraced
  · rename_i body after hspan
    split at hbraced
    · cases hbraced
      exact writes_of_spanAt? hspan
    · cases hbraced
  · cases hbraced

theorem Inline.writes_ofText (hpart : t <:+: line) : ∀ raw ∈ (ofText t).expressions, line.Writes raw := by
  unfold ofText
  split
  · rename_i raw hbraced
    exact List.forall_mem_singleton.mpr ((writes_of_braced? hbraced).of_part hpart)
  · exact List.forall_mem_nil _

theorem Value.writes_property (hpart : t <:+: line) : ∀ raw ∈ (property t).expressions, line.Writes raw := by
  unfold property
  split
  · rename_i raw hbraced
    exact List.forall_mem_singleton.mpr ((writes_of_braced? hbraced).of_part hpart)
  · exact List.forall_mem_nil _
  · repeat' split
    all_goals exact List.forall_mem_nil _

/-- A reference stands for itself; it is not empty. -/
theorem Value.writes_declared {value : Value} (hdeclared : declared t = .ok value) (hpart : t <:+: line) :
    ∀ raw ∈ value.expressions, line.Writes raw := by
  have htrim := (Text.trim_isInfix t).trans hpart
  unfold declared at hdeclared
  dsimp only at hdeclared
  split at hdeclared
  · rename_i hreference
    cases hdeclared
    have hne : Text.trim t ≠ [] := by
      intro hnil
      rw [hnil] at hreference
      cases hreference
    exact List.forall_mem_singleton.mpr (.bare hne (Text.trim_trim t) htrim)
  · split at hdeclared
    · cases hdeclared
      exact List.forall_mem_nil _
    · cases hdeclared
    · split at hdeclared
      · rename_i raw hbraced
        cases hdeclared
        exact List.forall_mem_singleton.mpr ((writes_of_braced? hbraced).of_part htrim)
      · cases hdeclared

end Values

section Parts

variable {t : Text}

theorem Text.suffix_of_after? {lead rest : Text} (hafter : after? lead t = some rest) : rest <:+ t :=
  ⟨lead, (after?_eq_some_iff.mp hafter).symm⟩

theorem Text.suffix_of_afterBlanks? {rest : Text} (hafter : afterBlanks? t = some rest) : rest <:+ t := by
  obtain ⟨blanks, rfl, -⟩ := eq_of_afterBlanks? hafter
  exact List.suffix_append blanks rest

theorem Text.suffix_of_word? {word rest : Text} (hword : word? t = some (word, rest)) : rest <:+ t :=
  ⟨word, (eq_of_word? hword).1.symm⟩

theorem Text.suffix_trimStart (t : Text) : trimStart t <:+ t :=
  List.dropWhile_suffix _

theorem Text.suffix_of_cut {c : Char} {after : Text} (hcut : (cut c t).2 = some after) : after <:+ t := by
  obtain ⟨hsplit, -⟩ := eq_of_cut hcut
  exact ⟨(cut c t).1 ++ [c], by rw [List.append_assoc, List.singleton_append, ← hsplit]⟩

theorem isInfix_of_between? {mark label : Text} (hbetween : between? mark t = some label) : label <:+: t := by
  simp only [between?, Option.bind_eq_bind, Option.bind_eq_some_iff] at hbetween
  obtain ⟨inner, ⟨rest, hafter, hbefore⟩, hline⟩ := hbetween
  obtain ⟨rfl, -⟩ := Text.eq_of_oneLine? hline
  have hfront : inner <+: rest := ⟨mark, (Text.before?_eq_some_iff.mp hbefore).symm⟩
  exact hfront.isInfix.trans (Text.suffix_of_after? hafter).isInfix

theorem isInfix_of_linkParts? {label target : Text} (hlink : linkParts? t = some (label, target)) :
    label <:+: t ∧ target <:+: t := by
  simp only [linkParts?, Option.bind_eq_bind, Option.bind_eq_some_iff] at hlink
  obtain ⟨rest, hrest, behind, hbehind, inner, hinner, hlink⟩ := hlink
  have hlabel : (Text.cut ']' rest).1 <+: rest := List.takeWhile_prefix _
  have htarget : (Text.cut ')' inner).1 <+: inner := List.takeWhile_prefix _
  have hrest := Text.suffix_of_after? hrest
  have hinner := ((Text.suffix_of_after? hinner).trans (Text.suffix_of_cut hbehind)).trans hrest
  split at hlink
  · cases hlink
    exact ⟨hlabel.isInfix.trans hrest.isInfix, htarget.isInfix.trans hinner.isInfix⟩
  · cases hlink

theorem suffix_of_heading? {text : Text} {level : Nat} (hheading : heading? t = some (level, text)) : text <:+ t := by
  unfold heading? at hheading
  dsimp only at hheading
  split at hheading
  · cases hheading
  · obtain ⟨text', hline, hpair⟩ := Option.bind_eq_some_iff.mp hheading
    obtain ⟨rest, hblanks, hline⟩ := Option.bind_eq_some_iff.mp hline
    cases hpair
    obtain ⟨rfl, -⟩ := Text.eq_of_oneLine? hline
    exact (Text.suffix_of_afterBlanks? hblanks).trans (List.drop_suffix _ _)

theorem suffix_of_item? {text : Text} (hitem : item? t = some text) : text <:+ t := by
  simp only [item?, Option.bind_eq_bind, Option.bind_eq_some_iff] at hitem
  obtain ⟨rest, ⟨behind, hmark, hblanks⟩, hline⟩ := hitem
  obtain ⟨rfl, -⟩ := Text.eq_of_oneLine? hline
  exact (Text.suffix_of_afterBlanks? hblanks).trans (Text.suffix_of_after? hmark)

/-- The text before a style is a part of the line, and the style holds no expression. -/
theorem splitStyle_parts (t : Text) :
    (splitStyle t).1 <:+: t ∧ ∀ field ∈ (splitStyle t).2, field.2.expressions = [] := by
  unfold splitStyle
  split
  · rename_i content css hstyle
    split
    · exact ⟨List.infix_refl t, List.forall_mem_nil _⟩
    · obtain ⟨before, hline, _, _, _, rfl⟩ := styleSuffix?_eq_some_iff.mp hstyle
      have hfront : before <+: t := ⟨styleText css, hline.symm⟩
      have hcontent : Text.trimEnd before <+: before := List.rdropWhile_prefix isBlank before
      exact ⟨(Text.trim_isInfix _).trans (hcontent.trans hfront).isInfix, List.forall_mem_singleton.mpr rfl⟩
  · exact ⟨List.infix_refl t, List.forall_mem_nil _⟩

theorem exists_of_shortest? {α : Type} {tail? : Text → Option α} {start : Text} {tail : α}
    (hshortest : shortest? tail? t = some (start, tail)) : ∃ rest, rest <:+ t ∧ tail? rest = some tail := by
  fun_induction shortest? tail? t generalizing start with
  | case1 => cases hshortest
  | case2 => cases hshortest
  | case3 c rest _ found hfound =>
    cases hshortest
    exact ⟨rest, List.suffix_cons c rest, hfound⟩
  | case4 c rest _ _ ih =>
    obtain ⟨⟨start', tail'⟩, hshorter, hpair⟩ := Option.map_eq_some_iff.mp hshortest
    cases hpair
    obtain ⟨behind, hbehind, hfound⟩ := ih hshorter
    exact ⟨behind, hbehind.trans (List.suffix_cons c rest), hfound⟩

theorem isInfix_of_fetchParts? {result seed : Text} {tail : FetchTail}
    (hparts : fetchParts? t = some (result, seed, tail)) : tail.url <:+: t := by
  simp only [fetchParts?, Option.bind_eq_bind, Option.bind_eq_some_iff] at hparts
  obtain ⟨rest, ⟨behind, hkeyword, hblanks⟩, ⟨result', rest'⟩, hword, inner, hopen, ⟨seed', tail'⟩, hseeded, hparts⟩ :=
    hparts
  cases hparts
  have hrest : rest <:+ t := (Text.suffix_of_afterBlanks? hblanks).trans (Text.suffix_of_after? hkeyword)
  have hinner : inner <:+ t := (((Text.suffix_of_after? hopen).trans (Text.suffix_trimStart rest')).trans
    (Text.suffix_of_word? hword)).trans hrest
  obtain ⟨kept, _, hshortest⟩ := List.exists_of_findSome?_eq_some hseeded
  obtain ⟨closing, hclosing, hread⟩ := exists_of_shortest? hshortest
  obtain ⟨blanks, word, after, rfl, -⟩ := FetchTail.exists_of_ofText? hread
  have hurl : tail'.url <:+: blanks ++ ')' :: word ++ '"' :: (tail'.url ++ '"' :: after) :=
    ⟨blanks ++ ')' :: word ++ ['"'], '"' :: after, by simp⟩
  exact hurl.trans ((hclosing.trans (List.drop_suffix _ _)).trans hinner).isInfix

end Parts

/-- A line writes all expressions of some content. -/
def Content.WrittenOn (line : Text) (content : Content) : Prop :=
  ∀ raw ∈ content.expressions, line.Writes raw

/-- A line writes all expressions of some attributes. -/
def Fields.WrittenOn (line : Text) (attributes : Fields Inline) : Prop :=
  ∀ field ∈ attributes, ∀ raw ∈ field.2.expressions, line.Writes raw

section Nodes

variable {line : Text} {attributes : Fields Inline}

theorem Fields.writtenOn_put {t : Text} (hpart : t <:+: line) (hattributes : attributes.WrittenOn line) (name : Text) :
    (put name (.ofText t) attributes).WrittenOn line := by
  intro field hfield
  obtain rfl | hold := mem_put hfield
  · exact Inline.writes_ofText hpart
  · exact hattributes field hold

theorem Content.writtenOn_element (hattributes : attributes.WrittenOn line) (tag : Text) :
    (Content.element tag none attributes).WrittenOn line := by
  intro raw hraw
  obtain ⟨field, hfield, hraw⟩ := List.mem_flatMap.mp hraw
  exact hattributes field hfield raw hraw

theorem Content.writtenOn_element_some {t : Text} (hpart : t <:+: line) (hattributes : attributes.WrittenOn line)
    (tag : Text) : (Content.element tag (some (.ofText t)) attributes).WrittenOn line := by
  intro raw hraw
  obtain hraw | hraw := List.mem_append.mp hraw
  · rw [Option.toList_some, List.flatMap_singleton] at hraw
    exact Inline.writes_ofText hpart raw hraw
  · exact writtenOn_element hattributes tag raw hraw

/-- Every node of a tree has its expressions on the line. -/
def Node.WrittenOn (line : Text) (node : Node) : Prop :=
  ∀ below ∈ node.preorder, below.content.WrittenOn line

theorem Node.writtenOn_leaf {content : Content} (hcontent : content.WrittenOn line) :
    (leaf content).WrittenOn line := by
  intro below hbelow
  obtain rfl := List.mem_singleton.mp hbelow
  exact hcontent

theorem Node.writtenOn_singleton {content : Content} {span? : Option Span} {child : Node}
    (hcontent : content.WrittenOn line) (hchild : child.WrittenOn line) :
    (mk content span? [child]).WrittenOn line := by
  intro below hbelow
  obtain rfl | hbelow := mem_preorder_iff.mp hbelow
  · exact hcontent
  · obtain ⟨other, hother, hinner⟩ := mem_preorderForest.mp hbelow
    obtain rfl := List.mem_singleton.mp hother
    exact hchild below hinner

theorem Node.writtenOn_emphasis {label : Text} (hlabel : label <:+: line) (hattributes : attributes.WrittenOn line)
    (tag : Text) : (emphasis tag label attributes).WrittenOn line := by
  have htext : (Content.text (.ofText label)).WrittenOn line := Inline.writes_ofText hlabel
  exact writtenOn_singleton (Content.writtenOn_element hattributes tag) (writtenOn_leaf htext)

end Nodes

section Readers

variable {t line : Text}

/-- The texts of prose are parts of the line. -/
theorem prose?_writtenOn (hpart : t <:+: line) {inList : Bool} {node : Node} (hread : prose? t inList = some node) :
    node.WrittenOn line := by
  obtain ⟨hrest, hplain⟩ := splitStyle_parts (Text.trim t)
  replace hrest := (hrest.trans (Text.trim_isInfix t)).trans hpart
  have hstyle : (splitStyle (Text.trim t)).2.WrittenOn line := by
    intro field hfield raw hraw
    rw [hplain field hfield] at hraw
    cases hraw
  unfold prose? at hread
  dsimp only at hread
  generalize splitStyle (Text.trim t) = parts at hread hrest hstyle
  split at hread
  · cases hread
  split at hread
  · rename_i label hlabel
    cases hread
    exact Node.writtenOn_emphasis ((isInfix_of_between? hlabel).trans hrest) hstyle _
  split at hread
  · rename_i label hlabel
    cases hread
    exact Node.writtenOn_emphasis ((isInfix_of_between? hlabel).trans hrest) hstyle _
  split at hread
  · rename_i label target hlink
    cases hread
    obtain ⟨hlabel, htarget⟩ := isInfix_of_linkParts? hlink
    exact Node.writtenOn_emphasis (hlabel.trans hrest) (Fields.writtenOn_put (htarget.trans hrest) hstyle _) _
  split at hread
  · rename_i label target hlink
    cases hread
    obtain ⟨rest, hmark, hlink⟩ := Option.bind_eq_some_iff.mp hlink
    obtain ⟨hlabel, htarget⟩ := isInfix_of_linkParts? hlink
    have hbehind := (Text.suffix_of_after? hmark).isInfix.trans hrest
    have hsource := Fields.writtenOn_put (htarget.trans hbehind) hstyle "src"
    exact Node.writtenOn_leaf (Content.writtenOn_element (Fields.writtenOn_put (hlabel.trans hbehind) hsource _) _)
  split at hread
  · rename_i level text hheading
    cases hread
    have htext := (suffix_of_heading? hheading).isInfix.trans hrest
    exact Node.writtenOn_leaf (Content.writtenOn_element_some htext hstyle _)
  split at hread
  · rename_i text hitem
    have htext := (suffix_of_item? hitem).isInfix.trans hrest
    have hitem := Node.writtenOn_leaf (Content.writtenOn_element_some htext hstyle "li")
    cases inList with
    | false =>
      cases hread
      have hlist : (Content.element "ul" none []).WrittenOn line := List.forall_mem_nil _
      exact Node.writtenOn_singleton hlist hitem
    | true =>
      cases hread
      exact hitem
  cases hread
  exact Node.writtenOn_leaf (Content.writtenOn_element_some hrest hstyle _)

/-- A condition is what stands between the first braces, or all of it. -/
theorem guard?_writtenOn (htrim : Text.trim t = t) {content : Content} (hread : guard? t = some content) :
    content.WrittenOn t := by
  simp only [guard?, Option.bind_eq_bind, Option.bind_eq_some_iff] at hread
  obtain ⟨rest, hkeyword, condition, ⟨behind, hblanks, hline⟩, hread⟩ := hread
  cases hread
  obtain ⟨rfl, hne⟩ := Text.eq_of_oneLine? hline
  have hsuffix : behind <:+ t := (Text.suffix_of_afterBlanks? hblanks).trans (Text.suffix_of_after? hkeyword)
  obtain ⟨blanks, -, -, hstart⟩ := Text.eq_of_afterBlanks? hblanks
  refine List.forall_mem_singleton.mpr ?_
  cases hspan : firstSpan? behind with
  | none => exact .bare hne (Text.trim_of_suffix htrim hsuffix hstart) hsuffix.isInfix
  | some raw => exact (writes_of_firstSpan? hspan).of_part hsuffix.isInfix

theorem loop?_writtenOn {content : Content} (hread : loop? t = some content) : content.WrittenOn line := by
  simp only [loop?, Option.bind_eq_bind, Option.bind_eq_some_iff] at hread
  obtain ⟨_, _, _, _, _, _, _, _, _, _, hread⟩ := hread
  split at hread
  · cases hread
    exact List.forall_mem_nil _
  · cases hread

theorem script?_writtenOn {content : Content} (hread : script? t = some content) : content.WrittenOn line := by
  simp only [script?, Option.bind_eq_bind, Option.bind_eq_some_iff] at hread
  obtain ⟨rest, _, hread⟩ := hread
  split at hread
  · cases hread
    exact List.forall_mem_nil _
  · obtain ⟨signature, _, hread⟩ := Option.bind_eq_some_iff.mp hread
    cases hread
    exact List.forall_mem_nil _

theorem PropertyToken.property?_writes {token : PropertyToken} (hpart : token.text <:+: line) {field : Text × Value}
    (hfield : token.property? = some field) : ∀ raw ∈ field.2.expressions, line.Writes raw := by
  unfold property? at hfield
  split at hfield
  · rename_i key value hcut
    have hvalue : value <:+ token.text := Text.suffix_of_cut (congrArg Prod.snd hcut)
    split at hfield
    · cases hfield
    · cases hfield
      exact Value.writes_property ((Text.trim_isInfix value).trans (hvalue.isInfix.trans hpart))
  · cases hfield

end Readers

namespace SourceLine

variable {line : SourceLine} {reading : Reading}

theorem declaration?_writtenOn (hread : line.declaration? = some reading) :
    ∀ node ∈ reading.node?, node.WrittenOn line.trimmed := by
  obtain ⟨parts, hparts, rfl⟩ := Option.map_eq_some_iff.mp hread
  obtain ⟨before, blanks, hline, -⟩ := DeclarationParts.eq_of_ofText? hparts
  have hvalue : parts.value <:+: line.trimmed := ⟨before ++ '=' :: blanks, [], by rw [hline]; simp⟩
  cases hdeclared : Value.declared parts.value with
  | error error => rintro node ⟨⟩
  | ok value =>
    have hwrites := Value.writes_declared hdeclared hvalue
    rintro node ⟨⟩
    refine Node.writtenOn_leaf ?_
    cases parts.kind <;> exact hwrites

theorem directive?_writtenOn (hread : line.directive? = some reading) :
    ∀ node ∈ reading.node?, node.WrittenOn line.trimmed := by
  have hcontent {content? : Option Content}
      (hwritten : ∀ content, content? = some content → content.WrittenOn line.trimmed)
      (hsome : (content?.map fun content => Reading.ofNode (.leaf content)) = some reading) :
      ∀ node ∈ reading.node?, node.WrittenOn line.trimmed := by
    obtain ⟨content, hcontent, rfl⟩ := Option.map_eq_some_iff.mp hsome
    rintro node ⟨⟩
    exact Node.writtenOn_leaf (hwritten content hcontent)
  simp only [SourceLine.directive?, Option.orElse_eq_orElse, Option.orElse_eq_or, Option.or_eq_some_iff] at hread
  obtain hloop | ⟨_, hguard | ⟨_, hfetch | ⟨_, hscript | ⟨_, hmalformed⟩⟩⟩⟩ := hread
  · exact hcontent (fun _ => loop?_writtenOn) hloop
  · exact hcontent (fun _ => guard?_writtenOn (Text.trim_trim line.text)) hguard
  · obtain ⟨⟨result, seed, tail⟩, hparts, rfl⟩ := Option.map_eq_some_iff.mp hfetch
    rintro node ⟨⟩
    have hurl := (Text.trim_isInfix tail.url).trans (isInfix_of_fetchParts? hparts)
    exact Node.writtenOn_leaf (Inline.writes_ofText hurl)
  · exact hcontent (fun _ => script?_writtenOn) hscript
  · split at hmalformed
    · split at hmalformed
      · cases hmalformed
        rintro node ⟨⟩
      · cases hmalformed
    · cases hmalformed

theorem component?_writtenOn (hread : line.component? = some reading) :
    ∀ node ∈ reading.node?, node.WrittenOn line.trimmed := by
  obtain ⟨⟨name, props⟩, hparts, rfl⟩ := Option.map_eq_some_iff.mp hread
  rintro node ⟨⟩
  refine Node.writtenOn_leaf fun raw hraw => ?_
  obtain ⟨field, hfield, hraw⟩ := List.mem_flatMap.mp hraw
  obtain ⟨token, htoken, hproperty⟩ := List.mem_filterMap.mp (Fields.mem_ofPairs hfield)
  obtain ⟨_, start, _, hstands⟩ := (PropertyToken.pieces_tokens _ props).stands _ (List.mem_map_of_mem htoken)
  have htext : token.text <:+: props := hstands.isInfix.trans (List.drop_suffix start props).isInfix
  exact token.property?_writes (htext.trans (props_suffix hparts).isInfix) hproperty raw hraw

/-- Whatever is read from a line has its expressions on the line. -/
theorem read?_writtenOn (hread : line.read? = some reading) :
    ∀ node ∈ reading.node?, node.WrittenOn line.trimmed := by
  simp only [SourceLine.read?, Option.orElse_eq_orElse, Option.orElse_eq_or, Option.or_eq_some_iff] at hread
  obtain hcomment | ⟨_, hdeclaration | ⟨_, hdirective | ⟨_, hcomponent | ⟨_, hprose⟩⟩⟩⟩ := hread
  · obtain ⟨text, _, rfl⟩ := Option.map_eq_some_iff.mp hcomment
    rintro node ⟨⟩
    have hremark : (Content.comment (Text.trim text)).WrittenOn line.trimmed := List.forall_mem_nil _
    exact Node.writtenOn_leaf hremark
  · exact declaration?_writtenOn hdeclaration
  · exact directive?_writtenOn hdirective
  · exact component?_writtenOn hcomponent
  · obtain ⟨node, hnode, rfl⟩ := Option.map_eq_some_iff.mp hprose
    rintro _ ⟨⟩
    exact prose?_writtenOn (List.infix_refl _) hnode

end SourceLine

theorem firstSpan?_of_braced? {t raw : Text} (hbraced : braced? t = some raw) : firstSpan? t = some raw := by
  unfold braced? at hbraced
  split at hbraced
  · rename_i body after hspan
    split at hbraced
    · cases hbraced
      cases t with
      | nil => cases hspan
      | cons c rest => rw [firstSpan?, hspan]
    · cases hbraced
  · cases hbraced

section BlankBraces

variable {blanks : Text} (hne : blanks ≠ []) (hblanks : ∀ c ∈ blanks, isBlank c)

include hne hblanks

theorem braced?_blanks : braced? ('\x7b' :: (blanks ++ ['\x7d'])) = some [] := by
  rw [braced?_eq_some hne (not_mem_of_isBlank hblanks rfl) (not_mem_of_isBlank hblanks rfl),
    Text.trim_eq_nil_iff.mpr hblanks]

theorem Inline.ofText_blanks : Inline.ofText ('\x7b' :: (blanks ++ ['\x7d'])) = .expression [] := by
  rw [Inline.ofText, braced?_blanks hne hblanks]

theorem Value.property_blanks : Value.property ('\x7b' :: (blanks ++ ['\x7d'])) = .expression [] := by
  rw [Value.property, braced?_blanks hne hblanks]

theorem guard?_blanks (hline : '\n' ∉ blanks) :
    guard? (":if " ++ '\x7b' :: (blanks ++ ['\x7d'])) = some (.guard []) := by
  have hkeyword : Text.after? ":if" (":if " ++ '\x7b' :: (blanks ++ ['\x7d'])) =
      some (' ' :: '\x7b' :: (blanks ++ ['\x7d'])) := rfl
  have hblank : Text.afterBlanks? (' ' :: '\x7b' :: (blanks ++ ['\x7d'])) = some ('\x7b' :: (blanks ++ ['\x7d'])) := rfl
  have honeLine : Text.oneLine? ('\x7b' :: (blanks ++ ['\x7d'])) = some ('\x7b' :: (blanks ++ ['\x7d'])) := by
    simp [Text.oneLine?, Text.isOneLine, hline]
  simp only [guard?, hkeyword, hblank, honeLine, firstSpan?_of_braced? (braced?_blanks hne hblanks),
    Option.bind_eq_bind, Option.bind_some, Option.getD_some]
  rfl

omit hne in
/-- Where JSON expects a name, another blank than its own is a fault. -/
theorem Json.read_blanks {c : Char} (hc : c ∈ blanks) (hgap : isGap c = false) :
    ∃ fault line column offset,
      read ('\x7b' :: (blanks ++ ['\x7d'])) = .error (.malformed fault line column offset) := by
  obtain ⟨d, more, hskip, hd⟩ : ∃ d more, skipBlanks (blanks ++ ['\x7d']) = d :: more ∧ isBlank d := by
    rw [skipBlanks_eq, List.dropWhile_append]
    cases hrest : blanks.dropWhile isGap with
    | nil => exact absurd (List.dropWhile_eq_nil_iff.mp hrest c hc) (by simp [hgap])
    | cons d more =>
      exact ⟨d, more ++ ['\x7d'], rfl, hblanks d ((List.dropWhile_suffix _).subset (hrest ▸ List.mem_cons_self))⟩
  have hmembers (fuel : Nat) : scanMembers (fuel + 1) [] (d :: more) = .error (.fault .nameExpected (d :: more)) := by
    unfold scanMembers
    split
    · contradiction
    · rename_i heq
      cases heq
      cases hd
    · rfl
  have hvalue (fuel : Nat) : scanValue (fuel + 2) ('\x7b' :: (blanks ++ ['\x7d'])) =
      .error (.fault .nameExpected (d :: more)) := by
    rw [scanValue, hskip]
    split
    · rename_i heq
      cases heq
      cases hd
    · exact hmembers fuel
  have hscan : scanDocument ('\x7b' :: (blanks ++ ['\x7d'])) = .error (.fault .nameExpected (d :: more)) := by
    unfold scanDocument
    split
    · rename_i heq
      cases heq
    · have hstart : skipBlanks ('\x7b' :: (blanks ++ ['\x7d'])) = '\x7b' :: (blanks ++ ['\x7d']) := rfl
      rw [hstart, hvalue]
  rw [read, hscan]
  exact ⟨_, _, _, _, rfl⟩

/-- Braces around blanks are an empty expression, unless they are an empty object to JSON. -/
theorem Value.declared_blanks :
    Value.declared ('\x7b' :: (blanks ++ ['\x7d'])) = .ok (.expression []) ↔ ∃ c ∈ blanks, Json.isGap c = false := by
  have hquote : '\'' ∉ '\x7b' :: (blanks ++ ['\x7d']) := by
    have hnot : '\'' ∉ blanks := not_mem_of_isBlank hblanks rfl
    simp [hnot]
  constructor
  · intro hdeclared
    by_contra hnone
    have hgaps : ∀ c ∈ blanks, Json.isGap c := by
      intro c hc
      by_contra hgap
      exact hnone ⟨c, hc, by simpa using hgap⟩
    have hobject := declared_of_not_mem (Json.Spelled.emptyObject ⟨blanks, hgaps⟩).document hquote
    rw [hdeclared] at hobject
    cases hobject
  · rintro ⟨c, hc, hgap⟩
    obtain ⟨fault, line, column, offset, hread⟩ := Json.read_blanks hblanks hc hgap
    have htrim : Text.trim ('\x7b' :: (blanks ++ ['\x7d'])) = '\x7b' :: (blanks ++ ['\x7d']) :=
      Text.trim_enclosed rfl rfl blanks
    rw [declared, htrim, isReference_cons rfl, Text.replaceChar_of_not_mem hquote, hread,
      braced?_blanks hne hblanks]
    rfl

end BlankBraces

end ViewMarkup
