import ViewMarkup.Line.Reading
import ViewMarkup.Proofs.Condition.Guarded
import ViewMarkup.Proofs.React.MarkupLines
import ViewMarkup.Proofs.Text.Pieces

namespace ViewMarkup

theorem firstSpan?_of_not_mem {t : Text} (ht : '\x7b' ∉ t) : firstSpan? t = none := by
  induction t with
  | nil => rfl
  | cons c t ih =>
    rw [List.mem_cons, not_or] at ht
    have hspan : spanAt? (c :: t) = none := by simp [spanAt?, Ne.symm ht.1]
    rw [firstSpan?, hspan, ih ht.2]

/-- The line that writes a guard. -/
def guardLine (gap condition : Text) : Text :=
  ":if".toList ++ (gap ++ condition)

theorem guard?_guardLine {gap condition : Text} (hgap : gap ≠ []) (hblank : ∀ c ∈ gap, isBlank c)
    (hne : condition ≠ []) (htrim : Text.trim condition = condition) (hline : '\n' ∉ condition)
    (hbrace : '\x7b' ∉ condition) : guard? (guardLine gap condition) = some (.guard condition) := by
  have hcondition : Text.afterBlanks? (gap ++ condition) = some condition :=
    Text.afterBlanks?_append hgap hblank (Text.trim_eq_self_iff.mp htrim).1
  have honeLine : Text.oneLine? condition = some condition := by
    rw [Text.oneLine?, if_neg]
    simp [hne, Text.isOneLine, hline]
  simp [guard?, guardLine, Text.after?_eq_some_iff.mpr, hcondition, honeLine, firstSpan?_of_not_mem hbrace]

namespace SourceLine

theorem read?_guardLine {lead gap condition trail : Text} (hgap : gap ≠ []) (hblank : ∀ c ∈ gap, isBlank c)
    (hne : condition ≠ []) (htrim : Text.trim condition = condition) (hline : '\n' ∉ condition)
    (hbrace : '\x7b' ∉ condition) (hlead : ∀ c ∈ lead, isBlank c) (htrail : ∀ c ∈ trail, isBlank c)
    (number indent : Int) (inList : Bool) :
    read? ⟨lead ++ guardLine gap condition ++ trail, number, indent, inList⟩ =
      some (.ofNode (.leaf (.guard condition))) := by
  have hlast : Text.trim (guardLine gap condition) = guardLine gap condition := by
    rw [Text.trim_eq_self_iff]
    refine ⟨by rintro c ⟨⟩; rfl, ?_⟩
    rw [guardLine, ← List.append_assoc, List.getLast?_append_of_ne_nil _ hne]
    exact (Text.trim_eq_self_iff.mp htrim).2
  have htrimmed : trimmed ⟨lead ++ guardLine gap condition ++ trail, number, indent, inList⟩ =
      guardLine gap condition :=
    (Text.trim_between hlead htrail (List.cons_ne_nil _ _) hlast).1
  have hcomment : Text.after? "//" (guardLine gap condition) = none := rfl
  have hdeclaration : DeclarationParts.ofText? (guardLine gap condition) = none := rfl
  have hloop : loop? (guardLine gap condition) = none := rfl
  rw [read?, comment?, declaration?, directive?, htrimmed]
  simp only [hcomment, hdeclaration, hloop, guard?_guardLine hgap hblank hne htrim hline hbrace, Option.map_none,
    Option.map_some]
  rfl

end SourceLine

namespace React

/-- The markup that a guard shows. -/
def fragmentCode (unit : Text) (level : Int) (children : List Node) : Text :=
  "<>".toList ++ ((forestMarkup unit (level + 1) children).flatMap (fun line => '\n' :: line) ++
    '\n' :: (pad unit level ++ "</>"))

/-- What follows the condition in the expression of a guard. -/
def guardedCode (unit : Text) (level : Int) (children : List Node) : Text :=
  " && (\n".toList ++ (pad unit (level + 1) ++ (fragmentCode unit (level + 1) children ++
    '\n' :: (pad unit level ++ [')'])))

theorem nodeCode_guard (unit : Text) (level : Int) (condition : Text) (span? : Option Span) (children : List Node) :
    nodeCode unit level (.mk (.guard condition) span? children) =
      pad unit level ++ inBraces (condition ++ guardedCode unit level children) := by
  have hlevel : level + 2 = level + 1 + 1 := by omega
  rw [nodeCode, markup, hlevel]
  simp only [List.cons_append, List.nil_append]
  rw [Text.join_cons]
  unfold guardedCode fragmentCode inBraces
  simp

section Expression

open Condition

theorem lexed_guardedCode {unit : Text} (hunit : ∀ c ∈ unit, c ∈ spaces) (level : Int) (children : List Node) :
    Lexed (some (fragmentCode unit (level + 1) children)) (guardedCode unit level children)
      [.and, .opening, .markup, .closing] := by
  have hpad (level : Int) : ∀ c ∈ pad unit level, c ∈ spaces := fun c hc => hunit c (Text.mem_of_mem_times hc)
  have hspace : ' ' ∈ spaces := by decide
  have hnewline : '\n' ∈ spaces := by decide
  have hclosing : Lexed (some (fragmentCode unit (level + 1) children)) ('\n' :: (pad unit level ++ [')']))
      [.closing] :=
    .space hnewline (.spaces (hpad level) (.token rfl .nil))
  have hmarkup (rest : Text) : lexeme? (some (fragmentCode unit (level + 1) children))
      (fragmentCode unit (level + 1) children ++ rest) = some (.markup, rest) :=
    lexeme?_eq_some_iff.mpr (.symbol rfl)
  have hshown : Lexed (some (fragmentCode unit (level + 1) children)) (pad unit (level + 1) ++
      (fragmentCode unit (level + 1) children ++ '\n' :: (pad unit level ++ [')']))) [.markup, .closing] :=
    .spaces (hpad (level + 1)) (.token (hmarkup _) hclosing)
  exact .space hspace (.token rfl (.space hspace (.token rfl (.space hnewline hshown))))

/-- The expression of a guard is read as the condition with the markup behind its last operand. -/
theorem reads_guardedCode {unit condition : Text} (hunit : ∀ c ∈ unit, c ∈ spaces) {c : Condition .conditional}
    (hreads : Reads none condition c) (level : Int) (children : List Node) :
    Reads (some (fragmentCode unit (level + 1) children)) (condition ++ guardedCode unit level children)
      c.guarded := by
  rw [Reads, tokens_guarded]
  exact .append (by rintro c ⟨⟩; rfl) (Lexed.some hreads _) (lexed_guardedCode hunit level children)

/-- A guard is read with its whole condition, and there is one way to read the expression that is written for it. The
expression comes to the markup exactly if the condition holds and is not decided before the last operand of `||` or
the last branch of `?:`, and so exactly if the condition holds where it has neither of them outermost. -/
theorem guard_shown_iff {lead gap condition trail : Text} {c : Condition .conditional}
    (hreads : Reads none condition c) (htrim : Text.trim condition = condition) (hline : '\n' ∉ condition)
    (hgap : gap ≠ []) (hblank : ∀ c ∈ gap, isBlank c) (hlead : ∀ c ∈ lead, isBlank c)
    (htrail : ∀ c ∈ trail, isBlank c) (number indent : Int) (inList : Bool) (width level : Int)
    (span? : Option Span) (children : List Node) :
    SourceLine.read? ⟨lead ++ guardLine gap condition ++ trail, number, indent, inList⟩ =
        some (.ofNode (.leaf (.guard condition))) ∧
      nodeCode (Text.times " " width) level (.mk (.guard condition) span? children) =
        pad (Text.times " " width) level ++
          inBraces (condition ++ guardedCode (Text.times " " width) level children) ∧
      ∃ e, (∀ e', Reads (some (fragmentCode (Text.times " " width) (level + 1) children))
          (condition ++ guardedCode (Text.times " " width) level children) e' ↔ e' = e) ∧
        (∀ truth, e.value truth = .markup ↔ c.Holds truth ∧ ¬ c.Settled truth) ∧
        ((∃ inner, c = .plain (.one inner)) → ∀ truth, e.value truth = .markup ↔ c.Holds truth) := by
  have hmarkup : .markup ∉ c.tokens := Lexed.markup_not_mem hreads
  have hunit : ∀ c ∈ Text.times " " width, c ∈ spaces := by
    intro c hc
    rw [List.mem_singleton.mp (Text.mem_of_mem_times hc)]
    decide
  have hreading := reads_guardedCode hunit hreads level children
  have hne : condition ≠ [] := by
    rintro rfl
    exact c.tokens_ne_nil (Lexed.unique hreads .nil)
  refine ⟨SourceLine.read?_guardLine hgap hblank hne htrim hline (Lexed.brace_not_mem hreads) hlead htrail _ _ _,
    nodeCode_guard _ _ _ _ _, c.guarded, ?_, ?_, ?_⟩
  · intro e'
    constructor
    · exact fun hreads' => hreads'.unique hreading
    · rintro rfl
      exact hreading
  · exact fun truth => value_guarded_iff truth c hmarkup
  · rintro ⟨inner, rfl⟩ truth
    rw [value_guarded_iff truth _ hmarkup, Settled, not_false_eq_true, and_true]

/-- A choice with an alternative in its last branch. -/
theorem guard_shown_iff_choice :
    ∃ c : Condition .conditional, Reads none "a ? b : !c || d".toList c ∧
      SourceLine.read? ⟨"  ".toList ++ guardLine " ".toList "a ? b : !c || d".toList ++ [], 4, 2, false⟩ =
        some (.ofNode (.leaf (.guard "a ? b : !c || d".toList))) ∧
      nodeCode (Text.times " " 2) 3 (.mk (.guard "a ? b : !c || d".toList) none []) =
        pad (Text.times " " 2) 3 ++ inBraces ("a ? b : !c || d".toList ++ guardedCode (Text.times " " 2) 3 []) ∧
      ∃ e, (∀ e', Reads (some (fragmentCode (Text.times " " 2) (3 + 1) []))
          ("a ? b : !c || d".toList ++ guardedCode (Text.times " " 2) 3 []) e' ↔ e' = e) ∧
        (∀ truth, e.value truth = .markup ↔ c.Holds truth ∧ ¬ c.Settled truth) ∧
        ((∃ inner, c = .plain (.one inner)) → ∀ truth, e.value truth = .markup ↔ c.Holds truth) := by
  have hspace : ' ' ∈ spaces := by decide
  have hreads : Reads none "a ? b : !c || d".toList
      (.choose (.one (.one (.name ['a']))) (.plain (.one (.one (.name ['b']))))
        (.plain (.more (.one (.one (.not (.name ['c'])))) (.one (.name ['d']))))) :=
    .token rfl (.space hspace (.token rfl (.space hspace (.token rfl (.space hspace (.token rfl (.space hspace
      (.token rfl (.token rfl (.space hspace (.token rfl (.space hspace (.token rfl .nil)))))))))))))
  exact ⟨_, hreads, guard_shown_iff hreads (by decide +kernel) (by decide) (by decide)
    (List.all_eq_true.mp (by decide)) (List.all_eq_true.mp (by decide)) (by simp) 4 2 false 2 3 none []⟩

/-- `a || b` holds with `a`, and the expression of the guard comes to `a`. -/
theorem guard_hides_markup :
    ∃ c e : Condition .conditional, Reads none "a || b".toList c ∧ c.Holds (· == ['a']) ∧
      nodeCode "  ".toList 3 (.mk (.guard "a || b".toList) none []) =
        "      ".toList ++ inBraces ("a || b".toList ++ guardedCode "  ".toList 3 []) ∧
      Reads (some (fragmentCode "  ".toList (3 + 1) [])) ("a || b".toList ++ guardedCode "  ".toList 3 []) e ∧
      e.value (· == ['a']) = .truth true := by
  have hspace : ' ' ∈ spaces := by decide
  have hreads : Reads none "a || b".toList (.plain (.more (.one (.one (.name ['a']))) (.one (.name ['b'])))) :=
    .token rfl (.space hspace (.token rfl (.space hspace (.token rfl .nil))))
  exact ⟨_, _, hreads, rfl, nodeCode_guard _ _ _ _ _,
    reads_guardedCode (by simpa using hspace) hreads 3 [], by rw [guarded]; rfl⟩

end Expression

end React

end ViewMarkup
