import ViewMarkup.Proofs.Json.OneLine
import ViewMarkup.Proofs.Line.OneLine
import ViewMarkup.Proofs.React.MarkupLines
import ViewMarkup.Proofs.Text.Lines
import ViewMarkup.Proofs.Text.Trim

namespace ViewMarkup

theorem eq_of_ofNat_eq_newline {n : Nat} (hchar : Char.ofNat n = '\n') : n = 10 := by
  by_cases hvalid : n.isValidChar
  · rw [Char.ofNat, dif_pos hvalid] at hchar
    exact congrArg Char.toNat hchar
  · rw [Char.ofNat, dif_neg hvalid] at hchar
    exact absurd hchar (by decide)

/-- The upper case of a character is no line feed. -/
theorem newline_not_mem_upperChar {c : Char} (hc : c ≠ '\n') : '\n' ∉ upperChar c := by
  unfold upperChar
  split
  · rename_i hascii
    have hupper : ∀ n < 128, (Char.ofNat n).toUpper = '\n' → Char.ofNat n = '\n' := by decide
    have hchar := hupper c.toNat hascii
    rw [Char.ofNat_toNat] at hchar
    rw [List.mem_singleton]
    exact fun heq => hc (hchar heq.symm)
  split
  · rename_i codes hcodes
    have hsequences : ∀ entry ∈ upperSequences, ∀ n ∈ entry.2, n ≠ 10 := by decide +kernel
    obtain ⟨before, after, hentry, _⟩ := List.lookup_eq_some_iff.mp hcodes
    intro hmem
    obtain ⟨n, hn, hchar⟩ := List.mem_map.mp hmem
    exact hsequences (c.toNat, codes) (by simp [hentry]) n hn (eq_of_ofNat_eq_newline hchar)
  split
  · rename_i stride shift hfind
    have hshifts : ∀ entry ∈ upperShifts, 10 < (entry.1.first : Int) + entry.2 := by decide +kernel
    have hmem := List.mem_of_find?_eq_some hfind
    have hholds := List.find?_some hfind
    have hlarge := hshifts _ hmem
    simp only [Stride.holds, Bool.and_eq_true, decide_eq_true_eq] at hholds hlarge
    rw [List.mem_singleton]
    intro heq
    have hcode := eq_of_ofNat_eq_newline heq.symm
    omega
  · simpa using hc.symm

namespace Text

theorem newline_not_mem_capitalize {t : Text} (ht : '\n' ∉ t) : '\n' ∉ capitalize t := by
  cases t with
  | nil => exact List.not_mem_nil
  | cons c rest =>
    obtain ⟨hc, hrest⟩ := List.ne_and_not_mem_of_not_mem_cons ht
    rw [capitalize, List.mem_append, not_or]
    exact ⟨newline_not_mem_upperChar hc.symm, hrest⟩

theorem newline_not_mem_replace (old : Text) {new t : Text} (hnew : '\n' ∉ new) (ht : '\n' ∉ t) :
    '\n' ∉ replace old new t := by
  have hfrom (skip : Nat) : '\n' ∉ replaceFrom old new skip t := by
    fun_induction replaceFrom old new skip t with
    | case1 => exact List.not_mem_nil
    | case2 skip c rest ih => exact ih (List.ne_and_not_mem_of_not_mem_cons ht).2
    | case3 c rest hold ih =>
      rw [List.mem_append, not_or]
      exact ⟨hnew, ih (List.ne_and_not_mem_of_not_mem_cons ht).2⟩
    | case4 c rest hold ih =>
      obtain ⟨hc, hrest⟩ := List.ne_and_not_mem_of_not_mem_cons ht
      exact List.not_mem_cons_of_ne_of_not_mem hc (ih hrest)
  exact hfrom 0

end Text

namespace React

theorem newline_not_mem_inBraces {raw : Text} (hraw : '\n' ∉ raw) : '\n' ∉ inBraces raw := by
  simp [inBraces, hraw]

theorem newline_not_mem_inlineText {value : Inline} (hvalue : value.OneLine) : '\n' ∉ inlineText value := by
  cases value with
  | expression raw => exact newline_not_mem_inBraces hvalue
  | text value =>
    rw [inlineText, escapeText, List.mem_flatMap]
    rintro ⟨c, hc, hmem⟩
    have hne : '\n' ≠ c := fun heq => hvalue (heq ▸ hc)
    revert hmem
    unfold escapeChar
    repeat' split
    all_goals simp [hne]

theorem newline_not_mem_camelCase {name : Text} (hname : '\n' ∉ name) : '\n' ∉ camelCase name := by
  have hpieces : ∀ piece ∈ Text.split '-' (Text.trim name), '\n' ∉ piece := fun piece hpiece hmem =>
    Text.not_mem_trim hname ((Text.of_mem_split hpiece).2 hmem)
  unfold camelCase
  split
  · exact List.not_mem_nil
  · rename_i head parts hsplit
    rw [hsplit] at hpieces
    obtain ⟨hhead, hparts⟩ := List.forall_mem_cons.mp hpieces
    rw [List.mem_append, not_or, List.mem_flatten]
    refine ⟨hhead, ?_⟩
    rintro ⟨_, hcapital, hmem⟩
    obtain ⟨part, hpart, rfl⟩ := List.mem_map.mp hcapital
    exact Text.newline_not_mem_capitalize (hparts part hpart) hmem

theorem newline_not_mem_styleEntry? {declaration entry : Text} (hdeclaration : '\n' ∉ declaration)
    (hentry : styleEntry? declaration = some entry) : '\n' ∉ entry := by
  have hname : '\n' ∉ (Text.cut ':' declaration).1 := fun hmem =>
    hdeclaration ((List.takeWhile_prefix _).subset hmem)
  unfold styleEntry? at hentry
  split at hentry
  · rename_i name value hcut
    rw [hcut] at hname
    split at hentry
    · cases hentry
    · cases hentry
      simp [newline_not_mem_camelCase hname, Json.newline_not_mem_writeString]
  · cases hentry

theorem newline_not_mem_styleObject {css : Text} (hcss : '\n' ∉ css) : '\n' ∉ styleObject css := by
  have hentries : ∀ entry ∈ (Text.split ';' css).filterMap styleEntry?, '\n' ∉ entry := by
    intro entry hentry
    obtain ⟨declaration, hdeclaration, hentry⟩ := List.mem_filterMap.mp hentry
    exact newline_not_mem_styleEntry? (fun hmem => hcss ((Text.of_mem_split hdeclaration).2 hmem)) hentry
  unfold styleObject
  split
  · decide
  · have hjoined := Text.newline_not_mem_join (show '\n' ∉ ", ".toList by decide) hentries
    rw [List.mem_append, List.mem_append, not_or, not_or]
    exact ⟨⟨by decide, hjoined⟩, by decide⟩

theorem newline_not_mem_attributeText {name : Text} {value : Inline} (hname : '\n' ∉ name)
    (hvalue : value.OneLine) : '\n' ∉ attributeText name value := by
  have hshown : '\n' ∉ (if name = "class".toList then "className".toList else name) := by
    split
    · decide
    · exact hname
  unfold attributeText
  dsimp only
  generalize (if name = "class".toList then "className".toList else name) = shown at hshown
  cases value with
  | expression raw => simp [hshown, newline_not_mem_inBraces hvalue]
  | text value =>
    have hquoted := Text.newline_not_mem_replace "\"" (show '\n' ∉ "&quot;".toList by decide) hvalue
    dsimp only
    split
    · simp [hshown, newline_not_mem_styleObject hvalue]
    · simpa [hshown] using hquoted

theorem newline_not_mem_attributeList {attributes : Fields Inline}
    (hattributes : ∀ field ∈ attributes, '\n' ∉ field.1 ∧ field.2.OneLine) : '\n' ∉ attributeList attributes := by
  simp only [attributeList, List.mem_flatMap, List.mem_append, not_exists, not_and]
  intro field hfield
  have hmem : field ∈ attributes := by
    obtain hfield | hfield := hfield
    · exact List.mem_of_mem_filter hfield
    · exact List.mem_of_mem_filter hfield
  obtain ⟨hname, hvalue⟩ := hattributes field hmem
  simp [newline_not_mem_attributeText hname hvalue]

theorem newline_not_mem_propValue {value : Value} (hvalue : value.OneLine) : '\n' ∉ propValue value := by
  unfold propValue
  split
  · exact newline_not_mem_inBraces hvalue
  · split
    · exact newline_not_mem_inBraces (Json.newline_not_mem_write_unicode _)
    · rename_i hplain
      simp_all
  · exact newline_not_mem_inBraces (Json.newline_not_mem_write_unicode _)

theorem newline_not_mem_propList {props : Fields Value}
    (hprops : ∀ field ∈ props, '\n' ∉ field.1 ∧ field.2.OneLine) : '\n' ∉ propList props := by
  simp only [propList, List.mem_flatMap, not_exists, not_and]
  intro field hfield
  obtain ⟨hkey, hvalue⟩ := hprops field hfield
  simp [hkey, newline_not_mem_propValue hvalue]

theorem newline_not_mem_opening {content : Content} (hcontent : content.OneLine) : '\n' ∉ opening content := by
  cases content with
  | element tag value? attributes =>
    obtain ⟨htag, _, hattributes⟩ := hcontent
    dsimp only [opening]
    simp [htag, newline_not_mem_attributeList hattributes]
  | component name props =>
    dsimp only [opening]
    simp [hcontent.1, newline_not_mem_propList hcontent.2]
  | loop item collection =>
    dsimp only [opening]
    simp [hcontent.1, hcontent.2]
  | guard condition =>
    dsimp only [opening]
    simp [show '\n' ∉ condition from hcontent]
  | _ => exact List.not_mem_nil

theorem newline_not_mem_closing {content : Content} (hcontent : content.OneLine) : '\n' ∉ closing content := by
  cases content with
  | element | component =>
    dsimp only [closing]
    simp [hcontent.1]
  | loop | guard =>
    dsimp only [closing]
    decide
  | _ => exact List.not_mem_nil

/-- Lines between two lines have no line feed if none of them has one. -/
theorem newline_not_mem_between {first last : Text} {inner : List MarkupLine} (hfirst : '\n' ∉ first)
    (hlast : '\n' ∉ last) (hinner : ∀ line ∈ inner, '\n' ∉ line.text) :
    ∀ line ∈ between first last inner, '\n' ∉ line.text := by
  simp only [between, List.forall_mem_append, List.forall_mem_singleton, List.forall_mem_map]
  exact ⟨⟨hfirst, hinner⟩, hlast⟩

theorem newline_not_mem_plainText? {node : Node} (hnode : node.content.OneLine) {text : Text}
    (htext : plainText? node = some text) : '\n' ∉ text := by
  unfold plainText? at htext
  split at htext
  · cases htext
    exact newline_not_mem_inlineText hnode
  · cases htext

theorem newline_not_mem_markupLines {node : Node} (hnode : ∀ below ∈ node.preorder, below.content.OneLine) :
    ∀ line ∈ markupLines node, '\n' ∉ line.text := by
  induction node using Node.induction with
  | mk content span? children ih =>
    have hcontent : content.OneLine := hnode _ (Node.mem_preorder_self _)
    have hchildren : ∀ child ∈ children, ∀ below ∈ child.preorder, below.content.OneLine :=
      fun child hchild below hbelow =>
        hnode below (Node.mem_preorder_iff.mpr (.inr (Node.mem_preorderForest.mpr ⟨child, hchild, hbelow⟩)))
    have hbelow : ∀ line ∈ forestLines children, '\n' ∉ line.text := by
      rw [forestLines_eq_flatMap]
      intro line hline
      obtain ⟨child, hchild, hline⟩ := List.mem_flatMap.mp hline
      exact ih child hchild (hchildren child hchild) line hline
    cases content with
    | element tag value? attributes =>
      obtain ⟨htag, hvalue, hattributes⟩ := id hcontent
      have hinline : '\n' ∉ value?.elim [] inlineText := by
        cases value? with
        | none => exact List.not_mem_nil
        | some value => exact newline_not_mem_inlineText (hvalue value rfl)
      have hplain : '\n' ∉ (children.filterMap plainText?).flatten := by
        rw [List.mem_flatten]
        rintro ⟨text, htext, hmem⟩
        obtain ⟨child, hchild, htext⟩ := List.mem_filterMap.mp htext
        exact newline_not_mem_plainText? (hchildren child hchild child (Node.mem_preorder_self child)) htext hmem
      rw [markupLines]
      split
      · rw [List.forall_mem_singleton]
        simp [htag, newline_not_mem_attributeList hattributes]
      split
      · rw [List.forall_mem_singleton]
        simp [newline_not_mem_opening hcontent, newline_not_mem_closing hcontent, hinline, hplain]
      · refine newline_not_mem_between (newline_not_mem_opening hcontent) (newline_not_mem_closing hcontent) ?_
        rw [List.forall_mem_append]
        refine ⟨?_, hbelow⟩
        split
        · exact List.forall_mem_nil _
        · exact List.forall_mem_singleton.mpr hinline
    | component name props =>
      rw [markupLines]
      split
      · simp [hcontent.1, newline_not_mem_propList hcontent.2]
      · exact newline_not_mem_between (newline_not_mem_opening hcontent) (newline_not_mem_closing hcontent) hbelow
    | loop item collection =>
      rw [markupLines]
      refine newline_not_mem_between (newline_not_mem_opening hcontent) (newline_not_mem_closing hcontent) ?_
      exact newline_not_mem_between (by simp [inBraces, hcontent.1]) (by decide) hbelow
    | guard condition =>
      rw [markupLines]
      refine newline_not_mem_between (newline_not_mem_opening hcontent) (newline_not_mem_closing hcontent) ?_
      exact newline_not_mem_between (by decide) (by decide) hbelow
    | comment remark =>
      have hremark := Text.newline_not_mem_replace "*/" (show '\n' ∉ "*\\/".toList by decide) hcontent
      rw [markupLines, List.forall_mem_singleton]
      simpa using hremark
    | text value =>
      rw [markupLines, List.forall_mem_singleton]
      exact newline_not_mem_inlineText hcontent
    | expression raw =>
      rw [markupLines, List.forall_mem_singleton]
      exact newline_not_mem_inBraces hcontent
    | _ => exact fun line hline => absurd hline List.not_mem_nil

end React

end ViewMarkup
