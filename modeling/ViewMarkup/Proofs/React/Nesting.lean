import ViewMarkup.Proofs.Document.Contents
import ViewMarkup.Proofs.React.Effects
import ViewMarkup.Proofs.React.OneLine

namespace ViewMarkup

theorem Content.oneLine_head_iff {content : Content} : content.head.OneLine ↔ content.OneLine := by
  cases content <;> rfl

/-- Every text of a document that goes into markup is on one line. -/
theorem Document.oneLine_content (t : Text) :
    ∀ node ∈ Node.preorderForest (ofText t).nodes, node.content.OneLine := by
  intro node hnode
  refine Content.oneLine_head_iff.mp (forall_content ?_ node hnode)
  intro raw hraw line htext reading hread node hnode below hbelow
  have hline : '\n' ∉ line.text := htext ▸ Text.newline_not_mem_lines hraw
  exact Content.oneLine_head_iff.mpr (line.read?_oneLine hline hread node hnode below hbelow)

namespace React

/-- Declarations, requests and scripts, which have no markup. -/
def isSilent : Content → Bool
  | .data .. | .state .. | .fetch .. | .script .. => true
  | _ => false

/-- Lines that are indented by a level. If there are more than one, the first and the last are the opening and
the closing line of the content, at exactly that level, and all others are deeper. -/
structure Nested (unit : Text) (level : Int) (content : Content) (lines : List Text) : Prop where
  indented : ∀ line ∈ lines, pad unit level <+: line
  wrapped : 1 < lines.length → ∃ inner,
    lines = [pad unit level ++ opening content] ++ inner ++ [pad unit level ++ closing content] ∧
      Text.indent (pad unit level ++ opening content) = (pad unit level).length ∧
      Text.indent (pad unit level ++ closing content) = (pad unit level).length ∧
      ∀ line ∈ inner, pad unit (level + 1) <+: line

/-- The lines that a node with the given content can have. -/
inductive Shape (content : Content) : List MarkupLine → Prop where
  | silent (hcontent : isSilent content ∨ content = .unknown) : Shape content []
  | single (text : Text) (hcontent : isSilent content = false) : Shape content [⟨0, text⟩]
  | wrapped (inner : List MarkupLine) (hcontent : isSilent content = false)
      (hopening : Text.indent (opening content) = 0) (hclosing : Text.indent (closing content) = 0) :
      Shape content (between (opening content) (closing content) inner)

theorem markupLines_shape (node : Node) : Shape node.content (markupLines node) := by
  obtain ⟨content, span?, children⟩ := node
  cases content with
  | element tag value? attributes =>
    rw [markupLines]
    split
    · exact .single _ rfl
    split
    · exact .single _ rfl
    · exact .wrapped _ rfl rfl rfl
  | component name props =>
    rw [markupLines]
    split
    · exact .single _ rfl
    · exact .wrapped _ rfl rfl rfl
  | loop | guard =>
    rw [markupLines]
    exact .wrapped _ rfl rfl rfl
  | comment | text | expression => exact .single _ rfl
  | data | state | fetch | script => exact .silent (.inl rfl)
  | unknown => exact .silent (.inr rfl)

theorem pad_add (unit : Text) {level : Int} (hlevel : 0 ≤ level) (depth : Nat) :
    pad unit (level + depth) = pad unit level ++ pad unit depth := by
  have hcount : (level + depth).toNat = level.toNat + depth := by omega
  rw [pad, pad, pad, Text.times, Text.times, Text.times, hcount, List.replicate_add, List.flatten_append,
    Int.toNat_natCast]

theorem pad_prefix_print (unit : Text) {level : Int} (hlevel : 0 ≤ level) (line : MarkupLine) :
    pad unit level <+: line.print unit level := by
  rw [MarkupLine.print, pad_add unit hlevel, List.append_assoc]
  exact List.prefix_append _ _

section

variable {unit : Text} (hne : unit ≠ []) (hblank : ∀ c ∈ unit, c = ' ')

include hblank

theorem indent_pad_append (level : Int) {t : Text} (ht : Text.indent t = 0) :
    Text.indent (pad unit level ++ t) = (pad unit level).length := by
  have hpad : ∀ c ∈ pad unit level, isBlank c := by
    intro c hc
    rw [hblank c (Text.mem_of_mem_times hc)]
    rfl
  rw [Text.indent, List.takeWhile_append_of_pos hpad, List.length_append]
  exact congrArg _ ht

theorem Shape.nested {content : Content} {lines : List MarkupLine} (hshape : Shape content lines) {level : Int}
    (hlevel : 0 ≤ level) : Nested unit level content (lines.map (MarkupLine.print unit level)) := by
  constructor
  · rw [List.forall_mem_map]
    exact fun line _ => pad_prefix_print unit hlevel line
  · intro hlength
    cases hshape with
    | silent | single => simp at hlength
    | wrapped inner _ hopening hclosing =>
      refine ⟨inner.map (MarkupLine.print unit (level + 1)), map_print_between unit level _ _ inner,
        indent_pad_append hblank level hopening, indent_pad_append hblank level hclosing, ?_⟩
      rw [List.forall_mem_map]
      exact fun line _ => pad_prefix_print unit (by omega) line

theorem newline_not_mem_print {line : MarkupLine} (hline : '\n' ∉ line.text) (level : Int) :
    '\n' ∉ line.print unit level := by
  rw [MarkupLine.print, List.mem_append, not_or]
  refine ⟨fun hmem => ?_, hline⟩
  exact absurd (hblank _ (Text.mem_of_mem_times hmem)) (by decide)

include hne

omit hblank in
theorem nodeCode_eq_nil_iff (node : Node) {level : Int} (hlevel : 1 ≤ level) :
    nodeCode unit level node = [] ↔ markupLines node = [] := by
  rw [nodeCode, markup_eq_print hne node hlevel, Text.join]
  cases markupLines node with
  | nil => simp
  | cons line lines =>
    cases lines with
    | nil => simpa using print_ne_nil hne hlevel line
    | cons next lines => simp [List.intercalate_cons_cons]

/-- The lines of the code of a node are the lines of its markup, if its texts are on one line. -/
theorem split_nodeCode {node : Node} (hnode : ∀ below ∈ node.preorder, below.content.OneLine) {level : Int}
    (hlevel : 1 ≤ level) (hcode : nodeCode unit level node ≠ []) :
    Text.split '\n' (nodeCode unit level node) = (markupLines node).map (MarkupLine.print unit level) := by
  have hlines : (markupLines node).map (MarkupLine.print unit level) ≠ [] := by
    rw [Ne, List.map_eq_nil_iff, ← nodeCode_eq_nil_iff hne node hlevel]
    exact hcode
  have hprinted : ∀ line ∈ (markupLines node).map (MarkupLine.print unit level), '\n' ∉ line := by
    rw [List.forall_mem_map]
    exact fun line hline => newline_not_mem_print hblank (newline_not_mem_markupLines hnode line hline) level
  rw [nodeCode, markup_eq_print hne node hlevel, Text.split_eq_splitOn]
  exact List.splitOn_intercalate '\n' hprinted hlines

end

/-- Markup nests as the nodes do. At every level from one on and for every unit of blanks, the code of a node
of a document is empty exactly for declarations, requests and scripts. Otherwise every line of it is indented
by the level, and if there are more than one, the first opens the node, the last closes it, and all lines
between are deeper. -/
theorem nodeCode_nested {t : Text} {node : Node} (hnode : node ∈ Node.preorderForest (Document.ofText t).nodes)
    {unit : Text} (hne : unit ≠ []) (hblank : ∀ c ∈ unit, c = ' ') {level : Int} (hlevel : 1 ≤ level) :
    (nodeCode unit level node = [] ↔ isSilent node.content) ∧
      (nodeCode unit level node ≠ [] →
        Nested unit level node.content (Text.split '\n' (nodeCode unit level node))) := by
  have hshape := markupLines_shape node
  have hbelow : ∀ below ∈ node.preorder, below.content.OneLine := fun below hbelow =>
    Document.oneLine_content t below ((Node.sublist_of_mem_preorderForest hnode).subset hbelow)
  constructor
  · obtain ⟨role, hrole⟩ := Document.exists_role (List.mem_map_of_mem hnode)
    have hknown : node.content ≠ .unknown := fun hunknown => by simp [hunknown, Content.role?] at hrole
    rw [nodeCode_eq_nil_iff hne node hlevel]
    generalize markupLines node = lines at hshape
    cases hshape with
    | silent hcontent => simpa using hcontent.resolve_right hknown
    | single text hcontent => simp [hcontent]
    | wrapped inner hcontent => simp [hcontent, between]
  · intro hcode
    rw [split_nodeCode hne hblank hbelow hlevel hcode]
    exact hshape.nested hblank (by omega)

/-- A list whose item holds a loop, at level one and with one blank as unit. -/
theorem nodeCode_nested_list :
    ∃ node ∈ Node.preorderForest (Document.ofText "Page()\n- a\n  :for x in xs\n    b").nodes,
      Text.split '\n' (nodeCode " " 1 node) =
        [" <ul>", "  <li>", "   a", "   \x7bxs.map((x, xIndex) => (", "    <Fragment key=\x7bxIndex\x7d>",
          "     <p>b</p>", "    </Fragment>", "   ))\x7d", "  </li>", " </ul>"].map String.toList ∧
      Nested " " 1 node.content (Text.split '\n' (nodeCode " " 1 node)) := by
  refine ⟨(Node.preorderForest (Document.ofText "Page()\n- a\n  :for x in xs\n    b").nodes).get
    ⟨0, by decide +kernel⟩, List.get_mem _ _, by decide +kernel, ?_⟩
  have hblank : ∀ c ∈ (" " : Text), c = ' ' := List.forall_mem_singleton.mpr rfl
  exact (nodeCode_nested (List.get_mem _ _) (by decide) hblank (by decide)).2 (by decide +kernel)

end React

end ViewMarkup
