import ViewMarkup.Proofs.Fields
import ViewMarkup.Proofs.Line.Names
import ViewMarkup.Proofs.Property.Spelling
import ViewMarkup.Proofs.Text.Pieces

namespace ViewMarkup

theorem Text.IsName.name?_append {name rest : Text} (hname : IsName name)
    (hrest : ∀ c ∈ rest.head?, isWord c = false) : name? (name ++ rest) = some (name, rest) := by
  have hword := word?_append hname.ne_nil hname.word hrest
  obtain ⟨c, tail, rfl, hstart⟩ := hname.exists_cons
  rw [List.cons_append] at hword ⊢
  rw [name?, if_pos hstart, hword]

/-- The line that writes a component with its properties. -/
def componentLine (name : Text) (properties : List WrittenProperty) : Text :=
  ':' :: (name ++ properties.flatMap WrittenProperty.text)

section Keywords

variable {name rest : Text} (hname : ∀ c ∈ name, isWord c) (hrest : ∀ c ∈ rest.head?, isWord c = false)
  (hreserved : name ∉ reserved)

include hname hrest hreserved

/-- A keyword with which a name starts is followed by the rest of the name. -/
theorem exists_isWord_of_keyword {keyword more : Text} (hkeyword : keyword ∈ reserved)
    (hafter : Text.after? (':' :: keyword) (':' :: (name ++ rest)) = some more) : ∃ c ∈ more.head?, isWord c := by
  have hall : reserved.all (fun keyword => keyword.all isWord) = true := by decide
  have hword := List.all_eq_true.mp (List.all_eq_true.mp hall keyword hkeyword)
  rw [Text.after?_eq_some_iff, List.cons_append, List.cons.injEq] at hafter
  by_contra hnot
  push Not at hnot
  -- both would be the longest word behind the colon
  have heq : keyword = name := by
    calc keyword = (keyword ++ more).takeWhile isWord :=
          (Text.takeWhile_append_of_head hword fun c hc => by simpa using hnot c hc).symm
      _ = (name ++ rest).takeWhile isWord := by rw [hafter.2]
      _ = name := Text.takeWhile_append_of_head hname hrest
  exact hreserved (heq ▸ hkeyword)

/-- So neither blanks nor the end of the line come behind it. -/
theorem keyword_goes_on {keyword more : Text} (hkeyword : keyword ∈ reserved)
    (hafter : Text.after? (':' :: keyword) (':' :: (name ++ rest)) = some more) :
    more ≠ [] ∧ Text.afterBlanks? more = none := by
  obtain ⟨c, hc, hword⟩ := exists_isWord_of_keyword hname hrest hreserved hkeyword hafter
  cases more with
  | nil => cases hc
  | cons d more =>
    obtain rfl := Option.mem_some_iff.mp hc
    rw [Text.afterBlanks?, if_neg (by simp [isBlank_eq_false_of_isWord hword])]
    exact ⟨List.cons_ne_nil d more, rfl⟩

theorem keyword_eq_none {keyword : Text} (hkeyword : keyword ∈ reserved) :
    (Text.after? (':' :: keyword) (':' :: (name ++ rest)) >>= Text.afterBlanks?) = none := by
  rw [Option.bind_eq_bind, Option.bind_eq_none_iff]
  exact fun more hafter => (keyword_goes_on hname hrest hreserved hkeyword hafter).2

theorem ofText?_eq_none : DeclarationParts.ofText? (':' :: (name ++ rest)) = none := by
  have hdata : DeclarationKind.data.rest? (':' :: (name ++ rest)) = none :=
    keyword_eq_none hname hrest hreserved (by decide)
  have hstate : DeclarationKind.state.rest? (':' :: (name ++ rest)) = none :=
    keyword_eq_none hname hrest hreserved (by decide)
  rw [DeclarationParts.ofText?, hdata, hstate]
  rfl

theorem loop?_eq_none : loop? (':' :: (name ++ rest)) = none := by
  have hfor : (Text.after? ":for" (':' :: (name ++ rest)) >>= Text.afterBlanks?) = none :=
    keyword_eq_none hname hrest hreserved (show "for".toList ∈ reserved by decide)
  have hforEach : (Text.after? ":forEach" (':' :: (name ++ rest)) >>= Text.afterBlanks?) = none :=
    keyword_eq_none hname hrest hreserved (show "forEach".toList ∈ reserved by decide)
  rw [loop?, hfor, hforEach]
  rfl

theorem guard?_eq_none : guard? (':' :: (name ++ rest)) = none := by
  rw [guard?, Option.bind_eq_bind, Option.bind_eq_none_iff]
  intro more hafter
  rw [(keyword_goes_on hname hrest hreserved (show "if".toList ∈ reserved by decide) hafter).2]
  rfl

theorem fetch?_eq_none : fetch? (':' :: (name ++ rest)) = none := by
  have hfetch : (Text.after? ":fetch" (':' :: (name ++ rest)) >>= Text.afterBlanks?) = none :=
    keyword_eq_none hname hrest hreserved (show "fetch".toList ∈ reserved by decide)
  rw [fetch?, fetchParts?, hfetch]
  rfl

theorem script?_eq_none : script? (':' :: (name ++ rest)) = none := by
  rw [script?, Option.bind_eq_bind, Option.bind_eq_none_iff]
  intro more hafter
  obtain ⟨hne, hblanks⟩ := keyword_goes_on hname hrest hreserved (show "js".toList ∈ reserved by decide) hafter
  rw [if_neg hne, hblanks]
  rfl

end Keywords

/-- The properties as they are written behind the name and the first blanks. -/
def propertiesText : List WrittenProperty → Text
  | [] => []
  | written :: properties => written.body ++ properties.flatMap WrittenProperty.text

section Written

variable {name : Text} {properties : List WrittenProperty}

theorem newline_not_mem_propertiesText (hproperties : ∀ written ∈ properties, written.WellFormed) :
    '\n' ∉ propertiesText properties := by
  cases properties with
  | nil => exact List.not_mem_nil
  | cons written properties =>
    obtain ⟨hwritten, hproperties⟩ := List.forall_mem_cons.mp hproperties
    have hbody : '\n' ∉ written.body := fun hmem =>
      hwritten.newline_not_mem_text (List.mem_append_right written.gap hmem)
    rw [propertiesText, List.mem_append, List.mem_flatMap]
    rintro (hmem | ⟨other, hother, hmem⟩)
    · exact hbody hmem
    · exact (hproperties other hother).newline_not_mem_text hmem

/-- No word goes on where the properties start. -/
theorem isWord_head_properties (hproperties : ∀ written ∈ properties, written.WellFormed) :
    ∀ c ∈ (properties.flatMap WrittenProperty.text).head?, isWord c = false := by
  cases properties with
  | nil => simp
  | cons written properties =>
    have hwritten := hproperties written List.mem_cons_self
    intro c hc
    rw [List.flatMap_cons, WrittenProperty.text, List.append_assoc,
      List.head?_append_of_ne_nil _ hwritten.gap_ne_nil] at hc
    exact isWord_eq_false_of_isBlank (hwritten.gap_isGap c (List.mem_of_mem_head? hc)).1

theorem componentParts?_line (hname : Text.IsName name)
    (hproperties : ∀ written ∈ properties, written.WellFormed) :
    componentParts? (componentLine name properties) = some (name, propertiesText properties) := by
  have hcolon (t : Text) : Text.after? ":" (':' :: t) = some t := Text.after?_eq_some_iff.mpr rfl
  have hread := hname.name?_append (isWord_head_properties hproperties)
  have honeLine : Text.isOneLine (propertiesText properties) = true := by
    simpa [Text.isOneLine] using newline_not_mem_propertiesText hproperties
  simp only [componentParts?, componentLine, hcolon, Option.bind_eq_bind, Option.bind_some, hread]
  cases properties with
  | nil => rfl
  | cons written properties =>
    have hwritten := hproperties written List.mem_cons_self
    have hblanks : Text.afterBlanks? ((written :: properties).flatMap WrittenProperty.text) =
        some (propertiesText (written :: properties)) := by
      rw [List.flatMap_cons, WrittenProperty.text, List.append_assoc]
      exact Text.afterBlanks?_append hwritten.gap_ne_nil (fun c hc => (hwritten.gap_isGap c hc).1)
        (hwritten.isBlank_head_body _)
    have hne : (written :: properties).flatMap WrittenProperty.text ≠ [] := by
      rw [List.flatMap_cons, WrittenProperty.text, List.append_assoc]
      exact List.append_ne_nil_of_left_ne_nil hwritten.gap_ne_nil _
    rw [if_neg hne, hblanks, Option.bind_some, if_pos honeLine]
    rfl

theorem trim_componentLine (hname : Text.IsName name)
    (hproperties : ∀ written ∈ properties, written.WellFormed) :
    Text.trim (componentLine name properties) = componentLine name properties := by
  rw [Text.trim_eq_self_iff, componentLine, List.head?_cons]
  refine ⟨by rintro c ⟨⟩; rfl, ?_⟩
  obtain rfl | ⟨front, last, rfl⟩ := List.eq_nil_or_concat' properties
  · rw [List.flatMap_nil, List.append_nil, ← List.singleton_append, List.getLast?_append_of_ne_nil _ hname.ne_nil]
    exact fun c hc => isBlank_eq_false_of_isWord (hname.word c (List.mem_of_getLast? hc))
  · have hlast := (hproperties last (by simp)).spelled
    have hend : ':' :: (name ++ (front ++ [last]).flatMap WrittenProperty.text) =
        (':' :: (name ++ front.flatMap WrittenProperty.text ++ last.gap ++ last.key) ++ ['=']) ++ last.spelling := by
      simp [WrittenProperty.text, WrittenProperty.body]
    rw [hend, List.getLast?_append_of_ne_nil _ hlast.ne_nil]
    exact (Text.trim_eq_self_iff.mp hlast.trim_eq).2

theorem texts_tokens (hproperties : ∀ written ∈ properties, written.WellFormed) (column : Int) :
    (PropertyToken.tokens column (propertiesText properties)).map PropertyToken.text =
      properties.map WrittenProperty.body := by
  cases properties with
  | nil => rfl
  | cons written properties =>
    obtain ⟨hwritten, hproperties⟩ := List.forall_mem_cons.mp hproperties
    rw [propertiesText, PropertyToken.tokens, PropertyToken.scan_sealed hwritten.sealed_body hwritten.body_ne_nil,
      WrittenProperty.texts_scan hproperties, List.reverse_reverse, List.map_cons]

theorem map_property?_tokens (hproperties : ∀ written ∈ properties, written.WellFormed) (column : Int) :
    (PropertyToken.tokens column (propertiesText properties)).map PropertyToken.property? =
      (properties.map WrittenProperty.field).map some := by
  have htext : PropertyToken.property? = (fun t => PropertyToken.property? ⟨t, 0⟩) ∘ PropertyToken.text := rfl
  rw [htext, ← List.map_map, texts_tokens hproperties, List.map_map, List.map_map]
  exact List.map_congr_left fun written hwritten => (hproperties written hwritten).property?_body 0

end Written

namespace SourceLine

variable {line : SourceLine} {name : Text} {properties : List WrittenProperty}

theorem comment?_line (hline : line.trimmed = componentLine name properties) : line.comment? = none := by
  rw [comment?, hline]
  rfl

theorem declaration?_line (hname : Text.IsName name) (hreserved : name ∉ reserved)
    (hproperties : ∀ written ∈ properties, written.WellFormed)
    (hline : line.trimmed = componentLine name properties) : line.declaration? = none := by
  rw [declaration?, hline, componentLine, ofText?_eq_none hname.word (isWord_head_properties hproperties) hreserved]
  rfl

theorem directive?_line (hname : Text.IsName name) (hreserved : name ∉ reserved)
    (hproperties : ∀ written ∈ properties, written.WellFormed)
    (hline : line.trimmed = componentLine name properties) : line.directive? = none := by
  have hhead := isWord_head_properties hproperties
  have hloop := loop?_eq_none hname.word hhead hreserved
  have hguard := guard?_eq_none hname.word hhead hreserved
  have hfetch := fetch?_eq_none hname.word hhead hreserved
  have hscript := script?_eq_none hname.word hhead hreserved
  rw [← componentLine] at hloop hguard hfetch hscript
  simp [directive?, hline, hloop, hguard, hfetch, hscript, componentParts?_line hname hproperties, hreserved]

theorem component?_line (hname : Text.IsName name) (hproperties : ∀ written ∈ properties, written.WellFormed)
    (hkeys : (properties.map WrittenProperty.key).Nodup) (hline : line.trimmed = componentLine name properties) :
    line.component? = some (.ofNode (.leaf (.component name (properties.map WrittenProperty.field)))) := by
  have hfields (column : Int) : (PropertyToken.tokens column (propertiesText properties)).filterMap
      PropertyToken.property? = properties.map WrittenProperty.field := by
    have hread := congrArg (List.filterMap id) (map_property?_tokens hproperties column)
    rwa [List.filterMap_map, List.filterMap_map, Function.id_comp, Function.id_comp, List.filterMap_some] at hread
  have hfaults (column : Int) : (PropertyToken.tokens column (propertiesText properties)).filter
      (fun token => token.property?.isNone) = [] := by
    rw [List.filter_eq_nil_iff]
    intro token htoken
    have hread := List.mem_map_of_mem (f := PropertyToken.property?) htoken
    rw [map_property?_tokens hproperties] at hread
    obtain ⟨field, _, hfield⟩ := List.mem_map.mp hread
    simp [← hfield]
  have hdistinct : ((properties.map WrittenProperty.field).map Prod.fst).Nodup := by
    rwa [List.map_map]
  rw [component?, hline, componentParts?_line hname hproperties]
  simp only [Option.map_some, hfields, hfaults, Fields.ofPairs_of_nodup hdistinct]
  rfl

/-- A component whose name is no keyword and whose keys are distinct is read back from the line that writes it. -/
theorem reads_componentLine {lead trail : Text} (hname : Text.IsName name) (hreserved : name ∉ reserved)
    (hproperties : ∀ written ∈ properties, written.WellFormed) (hkeys : (properties.map WrittenProperty.key).Nodup)
    (hlead : ∀ c ∈ lead, isBlank c) (htrail : ∀ c ∈ trail, isBlank c) (number indent : Int) (inList : Bool) :
    read? ⟨lead ++ componentLine name properties ++ trail, number, indent, inList⟩ =
      some (.ofNode (.leaf (.component name (properties.map WrittenProperty.field)))) := by
  have hline : trimmed ⟨lead ++ componentLine name properties ++ trail, number, indent, inList⟩ =
      componentLine name properties :=
    (Text.trim_between hlead htrail (List.cons_ne_nil _ _) (trim_componentLine hname hproperties)).1
  rw [read?, comment?_line hline, declaration?_line hname hreserved hproperties hline,
    directive?_line hname hreserved hproperties hline, component?_line hname hproperties hkeys hline]
  rfl

/-- Properties of each kind, with blanks, equals signs, quotes and braces inside of their values. -/
def cardProperties : List WrittenProperty :=
  [⟨" ", "title", .literal (.string "it's \x7ba = b"), "\"it's \x7ba = b\""⟩,
    ⟨"\t ", "wide", .literal (.bool true), "true"⟩,
    ⟨" ", "at", .literal (.int (-9007199254740992)), "-9007199254740992"⟩,
    ⟨"  ", "on-pick", .expression "go('a\" b')", "\x7bgo('a\" b')\x7d"⟩]

/-- The properties are read back from a line of a list. -/
theorem reads_componentLine_card :
    "  ".toList ++ componentLine "Card" cardProperties ++ [] =
        "  :Card title=\"it's \x7ba = b\"\t wide=true at=-9007199254740992  on-pick=\x7bgo('a\" b')\x7d".toList ∧
      read? ⟨"  ".toList ++ componentLine "Card" cardProperties ++ [], 3, 2, true⟩ =
        some (.ofNode (.leaf (.component "Card" (cardProperties.map WrittenProperty.field)))) := by
  have hquotes : Text.QuotesClosed "go('a\" b')" :=
    .plain (by decide) (by decide) <| .plain (by decide) (by decide) <| .plain (by decide) (by decide) <|
      @Text.QuotesClosed.quoted '\'' "a\" b" ")" (.inr rfl) (by decide) <| .plain (by decide) (by decide) .nil
  have hexpression : Value.Spelled (.expression "go('a\" b')") "\x7bgo('a\" b')\x7d" :=
    .expression (by decide) (by decide) (by decide) (by decide) (by decide) hquotes
  have hspelled : ∀ written ∈ cardProperties, written.value.Spelled written.spelling := by
    simp only [cardProperties, List.forall_mem_cons, List.not_mem_nil, false_imp_iff, implies_true, and_true]
    exact ⟨.string (by decide) (by decide), .bool true, .int (by decide), hexpression⟩
  have hshape : ∀ written ∈ cardProperties, written.gap ≠ [] ∧ Text.IsGap written.gap ∧ written.key ≠ [] ∧
      written.key.all Text.isPlain ∧ '=' ∉ written.key := by decide +kernel
  have hproperties : ∀ written ∈ cardProperties, written.WellFormed := by
    intro written hwritten
    obtain ⟨hgap, hblank, hkey, hplain, hequals⟩ := hshape written hwritten
    exact ⟨hgap, hblank, hkey, List.all_eq_true.mp hplain, hequals, hspelled written hwritten⟩
  exact ⟨by decide +kernel, reads_componentLine (by decide) (by decide) hproperties (by decide +kernel)
    (List.all_eq_true.mp (by decide)) (by simp) 3 2 true⟩

end SourceLine

end ViewMarkup
