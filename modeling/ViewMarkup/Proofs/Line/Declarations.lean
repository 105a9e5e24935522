import ViewMarkup.Line.Reading
import ViewMarkup.Proofs.React.Effects
import ViewMarkup.Proofs.Value.Declared

namespace ViewMarkup

/-- The line that declares a value. -/
def declarationLine (kind : DeclarationKind) (name value : Text) : Text :=
  ':' :: (kind.keyword ++ ' ' :: (name ++ '=' :: value))

/-- The statement of the script that declares a value. -/
def DeclarationKind.binding (kind : DeclarationKind) (name value : Text) : Text :=
  match kind with
  | data => "const " ++ name ++ " = " ++ value ++ ";"
  | state => "const [" ++ name ++ ", " ++ React.setterName name ++ "] = useState(" ++ value ++ ");"

section Lines

variable {name value : Text} (hname : name ≠ []) (hword : ∀ c ∈ name, isWord c) (hvalue : value ≠ [])
  (htrim : Text.trim value = value)

include hvalue htrim in
theorem trim_declarationLine (kind : DeclarationKind) (name : Text) :
    Text.trim (declarationLine kind name value) = declarationLine kind name value := by
  apply Text.trim_eq_self
  · rintro c hc
    cases hc
    rfl
  · intro c hc
    refine (Text.trim_eq_self_iff.mp htrim).2 c ?_
    have hline : declarationLine kind name value = ':' :: (kind.keyword ++ ' ' :: (name ++ ['='])) ++ value := by
      simp [declarationLine]
    rwa [hline, List.getLast?_append_of_ne_nil _ hvalue] at hc

include hname hword in
theorem rest?_declarationLine (kind : DeclarationKind) (value : Text) :
    kind.rest? (declarationLine kind name value) = some (name ++ '=' :: value) := by
  have hafter : Text.after? (':' :: kind.keyword) (declarationLine kind name value) =
      some ([' '] ++ (name ++ '=' :: value)) :=
    Text.after?_eq_some_iff.mpr (by simp [declarationLine])
  have hblanks : Text.afterBlanks? ([' '] ++ (name ++ '=' :: value)) = some (name ++ '=' :: value) := by
    refine Text.afterBlanks?_append (List.cons_ne_nil _ _) (List.forall_mem_singleton.mpr rfl) ?_
    cases name with
    | nil => exact absurd rfl hname
    | cons c name =>
      rintro d hd
      cases hd
      exact isBlank_eq_false_of_isWord (hword c List.mem_cons_self)
  rw [DeclarationKind.rest?, hafter]
  exact hblanks

include hname hword hvalue htrim in
/-- The parts of the line are read from it. -/
theorem ofText?_declarationLine (kind : DeclarationKind) (hline : '\n' ∉ value) :
    DeclarationParts.ofText? (declarationLine kind name value) = some ⟨kind, name, value⟩ := by
  have hrest := rest?_declarationLine hname hword kind value
  have hname : Text.word? (name ++ '=' :: value) = some (name, '=' :: value) :=
    Text.word?_append hname hword (by rintro c ⟨⟩; rfl)
  have hequals : Text.after? "=" (Text.trimStart ('=' :: value)) = some value := rfl
  have hstart : Text.trimStart value = value := by
    rw [← htrim]
    exact Text.trimStart_trimEnd_trimStart value
  have hone : Text.oneLine? value = some value := by
    rw [Text.oneLine?, if_neg]
    simpa [hvalue, Text.isOneLine] using hline
  cases kind with
  | data =>
    simp only [DeclarationParts.ofText?, hrest, Option.map_some, Option.orElse_eq_orElse, Option.orElse_some,
      Option.bind_eq_bind, Option.bind_some, hname, hequals, hstart, hone, Option.pure_def]
  | state =>
    have hdata : DeclarationKind.data.rest? (declarationLine .state name value) = none := rfl
    simp only [DeclarationParts.ofText?, hdata, hrest, Option.map_none, Option.map_some, Option.orElse_eq_orElse,
      Option.orElse_none, Option.bind_eq_bind, Option.bind_some, hname, hequals, hstart, hone, Option.pure_def]

end Lines

section Literals

variable {value : Json} (hliteral : Json.Literal (fun t => '\'' ∉ t) value)

include hliteral

/-- Reading a literal is the inverse of writing it. -/
theorem Value.declared_script : declared (Value.literal value).script = .ok (.literal value) :=
  declared_of_not_mem (Json.spelled_write .unicode hliteral).document (Json.quote_not_mem_write .unicode hliteral)

/-- A literal is read back from the line that declares it as the script writes it, and the script declares it with the
text that stands in the line. -/
theorem SourceLine.reads_declarationLine {name lead trail : Text} (hname : name ≠ []) (hword : ∀ c ∈ name, isWord c)
    (hlead : ∀ c ∈ lead, isBlank c) (htrail : ∀ c ∈ trail, isBlank c) (kind : DeclarationKind) (number indent : Int)
    (inList : Bool) (format : React.Format) :
    read? ⟨lead ++ declarationLine kind name (Value.literal value).script ++ trail, number, indent, inList⟩ =
        some (.ofNode (.leaf (kind.content name (.literal value)))) ∧
      Value.declared (Value.literal value).script = .ok (.literal value) ∧
      (React.contentEffects format (kind.content name (.literal value))).filterMap React.Effect.declaration? =
        [kind.binding name (Value.literal value).script] := by
  have hspelled := Json.spelled_write .unicode hliteral
  have hdeclared := Value.declared_script hliteral
  have hparts : DeclarationParts.ofText? (declarationLine kind name (Value.literal value).script) =
      some ⟨kind, name, (Value.literal value).script⟩ :=
    ofText?_declarationLine hname hword hspelled.ne_nil hspelled.trim_eq kind (Json.newline_not_mem_write_unicode value)
  have hline :
      trimmed ⟨lead ++ declarationLine kind name (Value.literal value).script ++ trail, number, indent, inList⟩ =
        declarationLine kind name (Value.literal value).script :=
    (Text.trim_between hlead htrail (List.cons_ne_nil _ _)
      (trim_declarationLine hspelled.ne_nil hspelled.trim_eq kind name)).1
  have hcomment : Text.after? "//" (declarationLine kind name (Value.literal value).script) = none := rfl
  refine ⟨?_, hdeclared, by cases kind <;> rfl⟩
  rw [read?, comment?, declaration?, hline, hcomment, hparts]
  simp only [Option.map_none, Option.map_some, hdeclared]
  rfl

end Literals

/-- A literal with escapes, a negative integer and nested containers. -/
theorem SourceLine.reads_declarationLine_nested :
    declarationLine .state "x"
          (Value.literal (.object [("a\n", .array [.null, .int (-12)]), ("b", .string "\"\x01")])).script =
        (":state x=\x7b\"a\\n\": [null, -12], \"b\": \"\\\"\\u0001\"\x7d" : Text) ∧
      read? ⟨"  ".toList ++ declarationLine .state "x"
          (Value.literal (.object [("a\n", .array [.null, .int (-12)]), ("b", .string "\"\x01")])).script ++ [],
          4, 2, false⟩ =
        some (.ofNode (.leaf (.state "x"
          (.literal (.object [("a\n", .array [.null, .int (-12)]), ("b", .string "\"\x01")]))))) := by
  have hitems : Json.Literal (fun t => '\'' ∉ t) (.array [.null, .int (-12)]) :=
    .array (List.forall_mem_cons.mpr ⟨.null, List.forall_mem_singleton.mpr (.int (by decide))⟩)
  have hliteral : Json.Literal (fun t => '\'' ∉ t)
      (.object [("a\n", .array [.null, .int (-12)]), ("b", .string "\"\x01")]) :=
    .object (by decide) (List.forall_mem_cons.mpr ⟨by decide, List.forall_mem_singleton.mpr (by decide)⟩)
      (List.forall_mem_cons.mpr ⟨hitems, List.forall_mem_singleton.mpr (.string (by decide))⟩)
  exact ⟨by decide +kernel, (reads_declarationLine hliteral (by decide) (List.forall_mem_singleton.mpr rfl)
    (List.all_eq_true.mp (by decide)) (List.forall_mem_nil _) .state 4 2 false ⟨"  ", "token"⟩).1⟩

end ViewMarkup
