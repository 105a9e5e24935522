import ViewMarkup.Proofs.Line.Outcome
import ViewMarkup.Proofs.Text.Words

namespace ViewMarkup

/-- A style as it is written at the end of a line. -/
def styleText (css : Text) : Text :=
  "style=" ++ '"' :: (css ++ ['"'])

theorem styleText_eq (css : Text) : styleText css = "style=" ++ '"' :: (css ++ ['"']) := rfl

theorem cutLast?_eq_some_iff {c : Char} {t before after : Text} :
    cutLast? c t = some (before, after) ↔ t = before ++ c :: after ∧ c ∉ after := by
  constructor
  · intro hcut
    unfold cutLast? at hcut
    split at hcut
    · rename_i found rest hreverse
      cases hcut
      obtain ⟨hsplit, hnot⟩ := Text.eq_of_cut (congrArg Prod.snd hreverse)
      rw [hreverse, List.reverse_eq_iff] at hsplit
      rw [hreverse] at hnot
      exact ⟨by simpa using hsplit, by simpa using hnot⟩
    · cases hcut
  · rintro ⟨rfl, hnot⟩
    have hreverse : (before ++ c :: after).reverse = after.reverse ++ c :: before.reverse := by simp
    rw [cutLast?, hreverse, Text.cut_append (by simpa using hnot)]
    simp

/-- A line ends in a style if the style holds no quote and what stands before it does not end in a word. -/
theorem styleSuffix?_eq_some_iff {t content css : Text} :
    styleSuffix? t = some (content, css) ↔
      ∃ before, t = before ++ styleText css ∧ '"' ∉ css ∧ before.getLast?.any isWord = false ∧
        '\n' ∉ content ∧ Text.trimEnd before = content := by
  simp only [styleSuffix?, Option.bind_eq_bind, Option.bind_eq_some_iff, Text.before?_eq_some_iff]
  constructor
  · rintro ⟨body, rfl, ⟨opening, css'⟩, hcut, before, rfl, hstyle⟩
    obtain ⟨rfl, hquote⟩ := cutLast?_eq_some_iff.mp hcut
    split at hstyle
    · cases hstyle
    split at hstyle
    · rename_i hword hline
      cases hstyle
      exact ⟨before, by simp [styleText_eq], hquote, by simpa using hword, by simpa [Text.isOneLine] using hline, rfl⟩
    · cases hstyle
  · rintro ⟨before, rfl, hquote, hword, hline, rfl⟩
    refine ⟨before ++ "style=" ++ '"' :: css, by simp [styleText_eq], (before ++ "style=", css),
      cutLast?_eq_some_iff.mpr ⟨rfl, hquote⟩, before, rfl, ?_⟩
    rw [hword, if_neg Bool.false_ne_true, if_pos (by simpa [Text.isOneLine] using hline)]
    rfl

/-- A style behind a text that is not empty is split off, with the blanks before it. -/
theorem splitStyle_append {content gap css : Text} (hne : content ≠ []) (htrim : Text.trim content = content)
    (hline : '\n' ∉ content) (hgap : gap ≠ []) (hblanks : ∀ c ∈ gap, isBlank c) (hquote : '"' ∉ css) :
    splitStyle (content ++ gap ++ styleText css) = (content, [("style".toList, .text css)]) := by
  have hlast := (Text.trim_eq_self_iff.mp htrim).2
  have hend : Text.trimEnd (content ++ gap) = content := by
    rw [Text.trimEnd, List.reverse_append, List.dropWhile_append_of_pos (by simpa using hblanks)]
    rw [← List.rdropWhile, List.rdropWhile_eq_self_iff]
    intro hne
    simp [hlast _ (List.getLast?_eq_some_getLast hne)]
  have hword : (content ++ gap).getLast?.any isWord = false := by
    rw [List.getLast?_append_of_ne_nil _ hgap, List.getLast?_eq_some_getLast hgap, Option.any_some]
    exact isWord_eq_false_of_isBlank (hblanks _ (List.getLast_mem hgap))
  have hsuffix : styleSuffix? (content ++ gap ++ styleText css) = some (content, css) :=
    styleSuffix?_eq_some_iff.mpr ⟨content ++ gap, rfl, hquote, hword, hline, hend⟩
  rw [splitStyle, hsuffix]
  dsimp only
  rw [htrim, if_neg hne]

namespace Content

/-- The element with a style in front of its attributes. -/
def styled (css : Text) : Content → Content
  | element tag value? attributes => element tag value? (("style", .text css) :: attributes)
  | content => content

end Content

namespace Node

/-- The node with a style of its own. -/
def withStyle (css : Text) : Node → Node
  | mk content span? children => mk (content.styled css) span? children

/-- The node that a line gives when a style stands behind it. A list that the line opens leaves the style to its
item. -/
def styled (css : Text) : Node → Node
  | mk content span? children =>
    if content.isList then mk content span? (children.map (withStyle css))
    else mk (content.styled css) span? children

end Node

/-- Prose without a style of its own is the same with a style behind it. -/
theorem prose?_of_splitStyle {t u content css : Text} (ht : splitStyle (Text.trim t) = (content, []))
    (hu : splitStyle (Text.trim u) = (content, [("style".toList, .text css)])) (inList : Bool) :
    prose? u inList = (prose? t inList).map (Node.styled css) := by
  unfold prose?
  rw [ht, hu]
  dsimp only
  split
  · rfl
  split
  · rfl
  split
  · rfl
  split
  · rfl
  split
  · rfl
  split
  · rfl
  split
  · cases inList <;> rfl
  · cases Inline.ofText content <;> rfl

/-- A trimmed line is an item exactly if it starts with a hyphen and a blank. -/
theorem item?_isSome_of_cons {c : Char} {rest : Text} (htrim : Text.trim ('-' :: c :: rest) = '-' :: c :: rest)
    (hline : '\n' ∉ rest) (hblank : isBlank c) : (item? ('-' :: c :: rest)).isSome := by
  have hne : Text.trimStart rest ≠ [] := by
    intro hnil
    have hblanks : ∀ d ∈ c :: rest, isBlank d :=
      List.forall_mem_cons.mpr ⟨hblank, List.dropWhile_eq_nil_iff.mp hnil⟩
    have hlast := (Text.trim_eq_self_iff.mp htrim).2 ((c :: rest).getLast (List.cons_ne_nil _ _))
      (by rw [List.getLast?_cons_cons, List.getLast?_eq_some_getLast (List.cons_ne_nil _ _)]; rfl)
    rw [hblanks _ (List.getLast_mem _)] at hlast
    cases hlast
  have honeLine : Text.oneLine? (Text.trimStart rest) = some (Text.trimStart rest) := by
    have hrest : '\n' ∉ Text.trimStart rest := fun hmem => hline ((List.dropWhile_suffix _).subset hmem)
    simp [Text.oneLine?, Text.isOneLine, hne, hrest]
  simp [item?, Text.after?, Text.afterBlanks?, hblank, honeLine]

theorem exists_blank_of_item? {t : Text} (hitem : (item? t).isSome) :
    ∃ c rest, t = '-' :: c :: rest ∧ isBlank c := by
  obtain ⟨tail, rfl⟩ := exists_cons_of_item? hitem
  cases tail with
  | nil => cases hitem
  | cons c rest =>
    refine ⟨c, rest, rfl, ?_⟩
    by_contra hnot
    simp [item?, Text.after?, Text.afterBlanks?, hnot] at hitem

/-- A list item that is nothing but a style. -/
def IsBareStyle (css t : Text) : Prop :=
  ∃ gap, t = '-' :: (gap ++ styleText css) ∧ gap ≠ [] ∧ (∀ c ∈ gap, isBlank c) ∧ '"' ∉ css

theorem IsBareStyle.splitStyle_eq {css t : Text} (hbare : IsBareStyle css t) :
    splitStyle t = (['-'], [("style".toList, .text css)]) := by
  obtain ⟨gap, rfl, hgap, hblanks, hquote⟩ := hbare
  have htrim : Text.trim ['-'] = ['-'] := rfl
  exact splitStyle_append (List.cons_ne_nil _ _) htrim (by decide) hgap hblanks hquote

theorem IsBareStyle.unique {css css' t : Text} (hbare : IsBareStyle css t) (hbare' : IsBareStyle css' t) :
    css = css' := by
  have hsame := hbare.splitStyle_eq.symm.trans hbare'.splitStyle_eq
  simpa using hsame

/-- What is left of an item without its style is an item again, unless the item is nothing but a style. -/
theorem item?_splitStyle {t : Text} (htrim : Text.trim t = t) (hitem : (item? t).isSome) :
    (item? (splitStyle t).1).isSome ∨ ∃ css, IsBareStyle css t := by
  obtain ⟨c, rest, rfl, hblank⟩ := exists_blank_of_item? hitem
  unfold splitStyle
  split
  · rename_i content css hsuffix
    obtain ⟨before, hsplit, hquote, _, hline, rfl⟩ := styleSuffix?_eq_some_iff.mp hsuffix
    split
    · exact .inl hitem
    rename_i hne
    have hbefore : before = Text.trimEnd before ++ before.rtakeWhile isBlank :=
      List.rdropWhile_append_rtakeWhile.symm
    have hend : Text.trimEnd (Text.trimEnd before) = Text.trimEnd before := List.rdropWhile_idempotent isBlank before
    rw [hbefore] at hsplit
    match hcontent : Text.trimEnd before with
    | [] => exact absurd (by rw [hcontent]; rfl) hne
    | [d] =>
      rw [hcontent] at hsplit
      refine .inr ⟨css, before.rtakeWhile isBlank, ?_, ?_, fun d hd => List.mem_rtakeWhile_imp hd, hquote⟩
      · obtain ⟨rfl, _⟩ := List.cons_eq_cons.mp hsplit
        exact hsplit
      · intro hnil
        rw [hnil] at hsplit
        obtain ⟨_, hstyle⟩ := List.cons_eq_cons.mp hsplit
        obtain ⟨rfl, _⟩ := List.cons_eq_cons.mp hstyle
        cases hblank
    | d :: e :: tail =>
      rw [hcontent] at hsplit hline hend
      obtain ⟨rfl, htail⟩ := List.cons_eq_cons.mp hsplit
      obtain ⟨rfl, _⟩ := List.cons_eq_cons.mp htail
      have htrimmed : Text.trim ('-' :: c :: tail) = '-' :: c :: tail := hend
      rw [htrimmed]
      exact .inl (item?_isSome_of_cons htrimmed (fun hmem => hline (by simp [hmem])) hblank)
  · exact .inl hitem

/-- No other kind of prose starts with a hyphen. -/
theorem prose?_eq_item {t content text : Text} {style : Fields Inline}
    (hsplit : splitStyle (Text.trim t) = (content, style)) (hitem : item? content = some text) :
    prose? t true = some (.leaf (.element "li" (some (.ofText text)) style)) := by
  obtain ⟨rest, rfl⟩ := exists_cons_of_item? (Option.isSome_of_mem hitem)
  unfold prose?
  rw [hsplit]
  simp [between?, linkParts?, heading?, Text.after?, hitem]

/-- An item that goes on with an open list is read as an item, unless it is nothing but a style: what is left of it
then is read as a paragraph. -/
theorem prose?_of_item {t : Text} (htrim : Text.trim t = t) (hitem : (item? t).isSome) :
    (∃ value attributes, prose? t true = some (.leaf (.element "li" value attributes)) ∧ ∀ css, ¬ IsBareStyle css t) ∨
    ∃ css, IsBareStyle css t ∧
      prose? t true = some (.leaf (.element "p" (some (.text "-")) [("style".toList, .text css)])) := by
  by_cases hbare : ∃ css, IsBareStyle css t
  · obtain ⟨css, hbare⟩ := hbare
    refine .inr ⟨css, hbare, ?_⟩
    unfold prose?
    rw [htrim, hbare.splitStyle_eq]
    rfl
  · obtain hrest | hbare' := item?_splitStyle htrim hitem
    · obtain ⟨text, htext⟩ := Option.isSome_iff_exists.mp hrest
      exact .inl ⟨_, _, prose?_eq_item (by rw [htrim]) htext, not_exists.mp hbare⟩
    · exact absurd hbare' hbare

/-- A style is independent of what it stands behind. A line that is trimmed and ends in no style of its own gives a
node, and with blanks and a style behind it the same node in that style. -/
theorem prose?_append_style {content gap css : Text} (hne : content ≠ []) (htrim : Text.trim content = content)
    (hline : '\n' ∉ content) (hplain : splitStyle content = (content, [])) (hgap : gap ≠ [])
    (hblanks : ∀ c ∈ gap, isBlank c) (hquote : '"' ∉ css) (inList : Bool) :
    ∃ node, prose? content inList = some node ∧
      prose? (content ++ gap ++ styleText css) inList = some (node.styled css) := by
  have hfirst := (Text.trim_eq_self_iff.mp htrim).1
  have hstyled : Text.trim (content ++ gap ++ styleText css) = content ++ gap ++ styleText css := by
    rw [Text.trim_eq_self_iff]
    constructor
    · rwa [List.append_assoc, List.head?_append_of_ne_nil _ hne]
    · intro c hc
      have hend : (content ++ gap ++ styleText css).getLast? = some '"' := by
        simp only [styleText_eq, ← List.cons_append, ← List.append_assoc, List.getLast?_concat]
      rw [hend] at hc
      cases hc
      rfl
  obtain ⟨node, hnode⟩ := Option.isSome_iff_exists.mp (prose?_isSome (by rwa [htrim]) inList)
  refine ⟨node, hnode, ?_⟩
  rw [prose?_of_splitStyle (by rwa [htrim]) (by rw [hstyled, splitStyle_append hne htrim hline hgap hblanks hquote]),
    hnode]
  rfl

theorem prose?_append_style_item :
    ∃ node, prose? "- [a](b) style=" false = some node ∧
      prose? ("- [a](b) style=".toList ++ " \t".toList ++ styleText "color: red") false =
        some (node.styled "color: red") :=
  prose?_append_style (by decide) (by decide +kernel) (by decide) (by decide +kernel) (by decide)
    (List.all_eq_true.mp (by decide)) (by decide) false

end ViewMarkup
