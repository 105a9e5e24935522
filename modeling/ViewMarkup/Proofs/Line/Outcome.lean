import Mathlib.Tactic.IntervalCases
import ViewMarkup.Line.Reading
import ViewMarkup.Proofs.Text.Trim

namespace ViewMarkup

/-- The tags of prose without anything inside. -/
def plainTags : List Text :=
  ["h1", "h2", "h3", "h4", "h5", "h6", "p", "div", "img"].map String.toList

/-- The tags of emphasis and links, which hold one piece of text. -/
def emphasisTags : List Text :=
  ["strong", "em", "a"].map String.toList

/-- Content other than prose that a line can give. -/
def Content.Plain : Content → Prop
  | component name _ => name ∉ reserved
  | script _ body => body = []
  | data .. | state .. | loop .. | guard .. | fetch .. | comment .. => True
  | element .. | text .. | expression .. | unknown => False

/-- Prose as it is read from a line. An item stands alone if it continues an open list, and otherwise
brings a list of its own. -/
inductive Node.Prose (inList : Bool) : Node → Prop where
  | plain {tag : Text} (htag : tag ∈ plainTags) (value : Option Inline) (attributes : Fields Inline) :
      Node.Prose inList (.leaf (.element tag value attributes))
  | item (value : Option Inline) (attributes : Fields Inline) (hlist : inList = true) :
      Node.Prose inList (.leaf (.element "li" value attributes))
  | list (value : Option Inline) (attributes : Fields Inline) (hlist : inList = false) :
      Node.Prose inList (.mk (.element "ul" none []) none [.leaf (.element "li" value attributes)])
  | emphasis {tag : Text} (htag : tag ∈ emphasisTags) (label : Text) (attributes : Fields Inline) :
      Node.Prose inList (ViewMarkup.emphasis tag label attributes)

/-- A node as it is read from a line, before it is put anywhere. -/
inductive Node.Fresh (inList : Bool) : Node → Prop where
  | plain {content : Content} (hplain : content.Plain) : Node.Fresh inList (.leaf content)
  | prose {node : Node} (hprose : node.Prose inList) : Node.Fresh inList node

/-- What a line gives that a reader takes: it is dropped with one fault, or it gives a node and perhaps faults
of its properties. Every fault is on the line. -/
inductive Reading.Outcome (line : SourceLine) : Reading → Prop where
  | dropped (fault : Diagnostic) (log : List LogRecord) (hline : fault.range.start.line = line.number) :
      Reading.Outcome line ⟨none, [fault], log⟩
  | kept (node : Node) (faults : List Diagnostic) (log : List LogRecord)
      (hfresh : node.Fresh line.inList) (hline : ∀ fault ∈ faults, fault.range.start.line = line.number) :
      Reading.Outcome line ⟨some node, faults, log⟩

/-- A node without faults. -/
theorem Reading.Outcome.ofNode {line : SourceLine} {node : Node} (hfresh : node.Fresh line.inList) :
    Reading.Outcome line (.ofNode node) :=
  .kept node [] [] hfresh (by simp)

theorem SourceLine.comment?_outcome {line : SourceLine} {reading : Reading}
    (hread : line.comment? = some reading) : reading.Outcome line := by
  obtain ⟨text, _, rfl⟩ := Option.map_eq_some_iff.mp hread
  exact .ofNode (.plain trivial)

/-- A declaration is kept, or dropped because its value cannot be read. -/
theorem SourceLine.declaration?_outcome {line : SourceLine} {reading : Reading}
    (hread : line.declaration? = some reading) : reading.Outcome line := by
  obtain ⟨parts, _, rfl⟩ := Option.map_eq_some_iff.mp hread
  cases Value.declared parts.value with
  | ok value =>
    apply Reading.Outcome.ofNode
    apply Node.Fresh.plain
    cases parts.kind <;> trivial
  | error error => exact .dropped _ _ rfl

theorem loop?_plain {t : Text} {content : Content} (hread : loop? t = some content) :
    content.Plain := by
  simp only [loop?, Option.bind_eq_bind, Option.bind_eq_some_iff] at hread
  obtain ⟨_, _, _, _, _, _, _, _, collection, _, hread⟩ := hread
  split at hread
  · cases hread
    trivial
  · cases hread

theorem guard?_plain {t : Text} {content : Content} (hread : guard? t = some content) :
    content.Plain := by
  simp only [guard?, Option.bind_eq_bind, Option.bind_eq_some_iff] at hread
  obtain ⟨_, _, condition, _, hread⟩ := hread
  cases hread
  trivial

theorem script?_plain {t : Text} {content : Content} (hread : script? t = some content) :
    content.Plain := by
  simp only [script?, Option.bind_eq_bind, Option.bind_eq_some_iff] at hread
  obtain ⟨rest, _, hread⟩ := hread
  split at hread
  · cases hread
    rfl
  · obtain ⟨signature, _, hread⟩ := Option.bind_eq_some_iff.mp hread
    cases hread
    rfl

/-- A malformed directive is dropped with one fault; a directive that can be read has no faults. -/
theorem SourceLine.directive?_outcome {line : SourceLine} {reading : Reading}
    (hread : line.directive? = some reading) : reading.Outcome line := by
  have hcontent {content? : Option Content} (hplain : ∀ content, content? = some content → content.Plain)
      (hsome : (content?.map fun content => Reading.ofNode (.leaf content)) = some reading) :
      reading.Outcome line := by
    obtain ⟨content, hcontent, rfl⟩ := Option.map_eq_some_iff.mp hsome
    exact .ofNode (.plain (hplain content hcontent))
  simp only [SourceLine.directive?, Option.orElse_eq_orElse, Option.orElse_eq_or,
    Option.or_eq_some_iff] at hread
  obtain hloop | ⟨_, hguard | ⟨_, hfetch | ⟨_, hscript | ⟨_, hmalformed⟩⟩⟩⟩ := hread
  · exact hcontent (fun _ => loop?_plain) hloop
  · exact hcontent (fun _ => guard?_plain) hguard
  · obtain ⟨parts, _, rfl⟩ := Option.map_eq_some_iff.mp hfetch
    exact .kept _ [] _ (.plain trivial) (by simp)
  · exact hcontent (fun _ => script?_plain) hscript
  · split at hmalformed
    · split at hmalformed
      · cases hmalformed
        exact .dropped _ _ rfl
      · cases hmalformed
    · cases hmalformed

/-- A line that is no directive does not start with a reserved word. -/
theorem SourceLine.not_reserved_of_directive?_none {line : SourceLine} (hnone : line.directive? = none)
    {name props : Text} (hparts : componentParts? line.trimmed = some (name, props)) :
    name ∉ reserved := by
  intro hreserved
  simp [SourceLine.directive?, hparts, hreserved] at hnone

/-- A component is always kept; the faults are those of its properties. -/
theorem SourceLine.component?_outcome {line : SourceLine} {reading : Reading}
    (hnone : line.directive? = none) (hread : line.component? = some reading) :
    reading.Outcome line := by
  obtain ⟨⟨name, props⟩, hparts, rfl⟩ := Option.map_eq_some_iff.mp hread
  refine .kept _ _ _ (.plain (SourceLine.not_reserved_of_directive?_none hnone hparts)) ?_
  intro fault hfault
  obtain ⟨token, _, rfl⟩ := List.mem_map.mp hfault
  rfl

/-- The tag of a heading is one of the six. -/
theorem heading?_tag {t text : Text} {level : Nat} (hheading : heading? t = some (level, text)) :
    'h' :: Text.ofNat level ∈ plainTags := by
  unfold heading? at hheading
  dsimp only at hheading
  split at hheading
  · cases hheading
  · rename_i hlevel
    obtain ⟨_, _, hpair⟩ := Option.bind_eq_some_iff.mp hheading
    cases hpair
    generalize (t.takeWhile (· == '#')).length = level at hlevel ⊢
    have hpositive : 1 ≤ level := by omega
    have hsix : level ≤ 6 := by omega
    interval_cases level <;> decide

/-- Prose has one of the four shapes; only an item depends on whether a list is open. -/
theorem prose?_prose {t : Text} {inList : Bool} {node : Node} (hread : prose? t inList = some node) :
    node.Prose inList := by
  unfold prose? at hread
  dsimp only at hread
  split at hread
  · cases hread
  split at hread
  · cases hread
    exact .emphasis (by decide) _ _
  split at hread
  · cases hread
    exact .emphasis (by decide) _ _
  split at hread
  · cases hread
    exact .emphasis (by decide) _ _
  split at hread
  · cases hread
    exact .plain (by decide) _ _
  split at hread
  · rename_i hheading
    cases hread
    exact .plain (heading?_tag hheading) _ _
  split at hread
  · cases inList with
    | false =>
      cases hread
      exact .list _ _ rfl
    | true =>
      cases hread
      exact .item _ _ rfl
  cases hread
  cases Inline.ofText (splitStyle (Text.trim t)).1 with
  | expression raw => exact .plain (by decide : "div".toList ∈ plainTags) _ _
  | text value => exact .plain (by decide : "p".toList ∈ plainTags) _ _

/-- A node as it is read outside a list: an item comes in a list of its own. -/
def Node.asList (node : Node) : Node :=
  if node.content.isItem then .mk (.element "ul" none []) none [node] else node

theorem prose?_false (t : Text) : prose? t false = (prose? t true).map Node.asList := by
  unfold prose?
  dsimp only
  split
  · rfl
  split
  · rfl
  split
  · rfl
  split
  · rfl
  split
  · rfl
  split
  · simp [Node.asList, Node.leaf, Node.content, Content.isItem]
  split
  · rfl
  · cases Inline.ofText (splitStyle (Text.trim t)).1 <;> rfl

/-- Splitting off a style never takes the whole line. -/
theorem splitStyle_ne_nil {t : Text} (hne : t ≠ []) : (splitStyle t).1 ≠ [] := by
  unfold splitStyle
  split
  · split
    · exact hne
    · assumption
  · exact hne

/-- Every text that is not blank is prose if it is nothing else. -/
theorem prose?_isSome {t : Text} (hne : Text.trim t ≠ []) (inList : Bool) :
    (prose? t inList).isSome := by
  have hrest := splitStyle_ne_nil hne
  unfold prose?
  dsimp only
  rw [if_neg hrest]
  repeat' split
  all_goals rfl

/-- A line that is not blank is always taken by one of the readers. -/
theorem SourceLine.read?_isSome {line : SourceLine} (hne : line.trimmed ≠ []) :
    line.read?.isSome := by
  have hprose : line.prose?.isSome := by
    rw [SourceLine.prose?, Option.isSome_map]
    apply prose?_isSome
    simpa [SourceLine.trimmed] using hne
  simp [SourceLine.read?, Option.isSome_or, hprose]

/-- Whatever takes a line gives one of the two outcomes. -/
theorem SourceLine.read?_outcome {line : SourceLine} {reading : Reading}
    (hread : line.read? = some reading) : reading.Outcome line := by
  simp only [SourceLine.read?, Option.orElse_eq_orElse, Option.orElse_eq_or,
    Option.or_eq_some_iff] at hread
  obtain hcomment | ⟨_, hdeclaration | ⟨_, hdirective | ⟨hnone, hcomponent | ⟨_, hprose⟩⟩⟩⟩ := hread
  · exact SourceLine.comment?_outcome hcomment
  · exact SourceLine.declaration?_outcome hdeclaration
  · exact SourceLine.directive?_outcome hdirective
  · exact SourceLine.component?_outcome hnone hcomponent
  · obtain ⟨node, hnode, rfl⟩ := Option.map_eq_some_iff.mp hprose
    exact .ofNode (.prose (prose?_prose hnode))

theorem exists_cons_of_item? {t : Text} (hitem : (item? t).isSome) : ∃ rest, t = '-' :: rest := by
  cases t with
  | nil => simp [item?, Text.after?] at hitem
  | cons c rest =>
    by_cases hc : '-' = c
    · exact ⟨rest, by rw [hc]⟩
    · simp [item?, Text.after?, hc] at hitem

/-- A line in the form of a list item is prose: every other reader wants a colon or two slashes. -/
theorem SourceLine.read?_eq_prose?_of_item {line : SourceLine} (hitem : (item? line.trimmed).isSome) :
    line.read? = line.prose? := by
  obtain ⟨rest, htrimmed⟩ := exists_cons_of_item? hitem
  have hcomment : line.comment? = none := by
    simp [SourceLine.comment?, htrimmed, Text.after?]
  have hdeclaration : line.declaration? = none := by
    simp [SourceLine.declaration?, DeclarationParts.ofText?, DeclarationKind.rest?, htrimmed, Text.after?]
  have hdirective : line.directive? = none := by
    simp [SourceLine.directive?, htrimmed, loop?, guard?, fetch?, fetchParts?, script?,
      componentParts?, Text.after?]
  have hcomponent : line.component? = none := by
    simp [SourceLine.component?, componentParts?, htrimmed, Text.after?]
  simp [SourceLine.read?, hcomment, hdeclaration, hdirective, hcomponent]

/-- The only container that prose opens is a new list. -/
theorem Node.Prose.isList_of_isContainer {inList : Bool} {node : Node} (hprose : node.Prose inList)
    (hcontainer : node.content.isContainer) : node.content.isList ∧ inList = false := by
  cases hprose with
  | plain htag value attributes =>
    simp only [plainTags, List.map_cons, List.map_nil, List.mem_cons, List.not_mem_nil, or_false] at htag
    obtain rfl | rfl | rfl | rfl | rfl | rfl | rfl | rfl | rfl := htag <;> cases hcontainer
  | item value attributes hlist => cases hcontainer
  | list value attributes hlist => exact ⟨rfl, hlist⟩
  | emphasis htag label attributes =>
    simp only [emphasisTags, List.map_cons, List.map_nil, List.mem_cons, List.not_mem_nil, or_false] at htag
    obtain rfl | rfl | rfl := htag <;> cases hcontainer

/-- A line in the form of a list item opens a container only where no list is open at its indent:
then it opens a list. -/
theorem SourceLine.isList_of_item {line : SourceLine} {reading : Reading} {node : Node}
    (hitem : (item? line.trimmed).isSome) (hread : line.read? = some reading)
    (hnode : reading.node? = some node) (hcontainer : node.content.isContainer) :
    node.content.isList ∧ line.inList = false := by
  rw [SourceLine.read?_eq_prose?_of_item hitem] at hread
  obtain ⟨actual, hprose, rfl⟩ := Option.map_eq_some_iff.mp hread
  cases hnode
  exact (prose?_prose hprose).isList_of_isContainer hcontainer

end ViewMarkup
