import ViewMarkup.Line.Reading
import ViewMarkup.Proofs.Property.Tokens
import ViewMarkup.Proofs.Signature.Entries
import ViewMarkup.Proofs.Text.Scan

namespace ViewMarkup

/-- What a fault of a line reports: a fragment of the line and the column at which the fragment starts. Only
the first line is a signature. -/
inductive Reports (raw : Text) : (line : Nat) → DiagnosticCode → (message : Text) → (column : Int) →
    (fragment : Text) → Prop where
  | blank (hblank : Text.trim raw = []) : Reports raw 0 .emptyFile "File must not be empty" 0 []
  | signature (hparts : Signature.parts? (Text.trim raw) = none) :
      Reports raw 0 .invalidComponentSignature ("Invalid component signature: " ++ Text.trim raw)
        (Text.indent raw) (Text.trim raw)
  | parameter {name parameters : Text} (hparts : Signature.parts? (Text.trim raw) = some (name, parameters))
      {entry : ParameterEntry} (hentry : entry ∈ ParameterEntry.split parameters)
      (hmalformed : ParameterEntry.parameter? entry.text = none) :
      Reports raw 0 .invalidPropDefinition ("Invalid prop definition: " ++ entry.text)
        (Text.indent raw + name.length + 1 + entry.start) entry.text
  | property {line : Nat} (hline : 0 < line) {name props : Text}
      (hparts : componentParts? (Text.trim raw) = some (name, props)) {token : PropertyToken}
      (htoken : token ∈ PropertyToken.tokens (Text.indent raw + ((Text.trim raw).length - props.length)) props)
      (hmalformed : token.property? = none) :
      Reports raw line .invalidProperty ("Invalid property: " ++ token.text) token.start token.text
  | directive {line : Nat} (hline : 0 < line) {name props : Text}
      (hparts : componentParts? (Text.trim raw) = some (name, props)) (hreserved : name ∈ reserved) :
      Reports raw line .invalidDirective ("Malformed :" ++ name ++ " directive: " ++ Text.trim raw)
        (Text.indent raw) (Text.trim raw)
  | value {line : Nat} (hline : 0 < line) (kind : DeclarationKind) (name : Text) {before after : Text}
      (hcut : Text.cut '=' raw = (before, some after)) {error : JsonError}
      (hvalue : Value.declared (Text.trim after) = .error error) :
      Reports raw line kind.invalidValue
        ("Invalid value for :" ++ kind.keyword ++ " " ++ name ++ ": " ++ error.message)
        (before.length + 1 + Text.indent after) (Text.trim after)

/-- Only a blank first line has a fault that reports nothing. -/
theorem Reports.of_emptyFile {raw message fragment : Text} {line : Nat} {code : DiagnosticCode} {column : Int}
    (hreports : Reports raw line code message column fragment) (hcode : code = .emptyFile) :
    line = 0 ∧ Text.trim raw = [] ∧ fragment = [] := by
  cases hreports with
  | blank hblank => exact ⟨rfl, hblank, rfl⟩
  | value _ kind => cases kind <;> cases hcode
  | _ => cases hcode

/-- A fault that covers the fragment of the line that it reports. Only the fault of an empty file covers
nothing. -/
def Diagnostic.PointsAt (line : Nat) (raw : Text) (fault : Diagnostic) : Prop :=
  ∃ start stop : Nat, fault.range = Range.onLine line start stop ∧ start ≤ stop ∧ stop ≤ raw.length ∧
    Reports raw line fault.code fault.message start (Text.slice start stop raw) ∧
    (start = stop ↔ fault.code = .emptyFile)

/-- The faults of one line. -/
structure Reported (line : Nat) (raw : Text) (faults : List Diagnostic) : Prop where
  points : ∀ fault ∈ faults, fault.PointsAt line raw
  apart : faults.Pairwise fun fault next => fault.range.stop.character < next.range.start.character

namespace Reported

theorem nil (line : Nat) (raw : Text) : Reported line raw [] :=
  ⟨by simp, .nil⟩

/-- One fault for each of some pieces of the line. -/
theorem of_pieces {α : Type} {line : Nat} {raw : Text} (faulty : List α) (fault : α → Diagnostic)
    (piece : α → Int × Text) (hpieces : Text.Pieces 0 raw (faulty.map piece))
    (hrange : ∀ x, (fault x).range =
      Range.onLine line (piece x).1 ((piece x).1 + ((piece x).2.length : Int)))
    (hreports : ∀ x ∈ faulty, Reports raw line (fault x).code (fault x).message (piece x).1 (piece x).2) :
    Reported line raw (faulty.map fault) := by
  refine ⟨List.forall_mem_map.mpr fun x hx => ?_, List.pairwise_map.mpr ?_⟩
  · obtain ⟨hne, start, hstart, hstands⟩ := hpieces.stands (piece x) (List.mem_map_of_mem hx)
    have hpositive := List.length_pos_iff.mpr hne
    have hreport := hreports x hx
    refine ⟨start, start + (piece x).2.length, ?_, by omega, Text.stop_le_of_prefix hne hstands, ?_, ?_⟩
    · rw [hrange, hstart]
      push_cast
      rw [Int.zero_add]
    · rwa [Text.slice_of_prefix hstands, ← Int.zero_add (start : Int), ← hstart]
    · exact ⟨fun hsame => by omega, fun hcode => absurd (hreport.of_emptyFile hcode).2.2 hne⟩
  · refine (List.pairwise_map.mp hpieces.apart).imp fun {x y} hapart => ?_
    rw [hrange x, hrange y]
    exact hapart

/-- One fault that covers the end of the trimmed line. -/
theorem of_suffix {line : Nat} {raw fragment message : Text} {code : DiagnosticCode}
    (hsuffix : fragment <:+ Text.trim raw) (hne : fragment ≠ []) {column : Int}
    (hcolumn : column = Text.indent raw + ((Text.trim raw).length - fragment.length))
    (hreports : Reports raw line code message column fragment) :
    Reported line raw [.error code message line column (column + (fragment.length : Int))] := by
  let fault (piece : Int × Text) : Diagnostic :=
    .error code message line piece.1 (piece.1 + (piece.2.length : Int))
  have hpiece := Text.Pieces.singleton column hne (List.prefix_refl (fragment.drop 0))
  subst hcolumn
  simp only [Int.natCast_zero, Int.add_zero] at hpiece
  exact of_pieces [(_, fragment)] fault id (Text.Pieces.of_suffix hsuffix hpiece) (fun _ => rfl)
    (List.forall_mem_singleton.mpr hreports)

theorem trimmed {line : Nat} {raw message : Text} {code : DiagnosticCode} (hblank : Text.trim raw ≠ [])
    (hreports : Reports raw line code message (Text.indent raw) (Text.trim raw)) :
    Reported line raw
      [.error code message line (Text.indent raw) (Text.indent raw + ((Text.trim raw).length : Int))] :=
  of_suffix List.suffix_rfl hblank (by omega) hreports

end Reported

/-- The fault of a malformed entry of a parameter list that starts at a column. -/
def ParameterEntry.fault (column : Int) (entry : ParameterEntry) : Diagnostic :=
  .error .invalidPropDefinition ("Invalid prop definition: " ++ entry.text) 0 (column + entry.start)
    (column + entry.start + entry.text.length)

theorem Signature.read_faults {raw name parameters : Text}
    (hparts : parts? (Text.trim raw) = some (name, parameters)) :
    (read raw 0).2 =
      ((ParameterEntry.split parameters).filter fun entry => (ParameterEntry.parameter? entry.text).isNone).map
        (ParameterEntry.fault (Text.indent raw + name.length + 1)) := by
  rw [read, hparts]
  dsimp only
  induction ParameterEntry.split parameters with
  | nil => rfl
  | cons entry entries ih =>
    rw [List.map_cons, List.filterMap_cons, readEntry]
    cases hentry : ParameterEntry.parameter? entry.text with
    | some parameter => simpa [hentry] using ih
    | none => simpa [hentry, ParameterEntry.fault] using ih

theorem Signature.pieces_entries {raw name parameters : Text}
    (hparts : parts? (Text.trim raw) = some (name, parameters)) :
    Text.Pieces 0 raw ((ParameterEntry.split parameters).map fun entry =>
      (Text.indent raw + name.length + 1 + (entry.start : Int), entry.text)) := by
  have htrim := eq_of_parts? hparts
  have hlength := congrArg List.length htrim
  simp only [List.length_append, List.length_cons, List.length_nil] at hlength
  have hsuffix : [] ++ parameters ++ [')'] <:+ Text.trim raw := ⟨name ++ ['('], by simp [htrim]⟩
  apply Text.Pieces.of_suffix hsuffix
  apply Text.Pieces.whole [] [')']
  have hshifted := (ParameterEntry.pieces_split parameters).shift (Text.indent raw + name.length + 1)
  rw [List.map_map] at hshifted
  convert hshifted using 1
  · simp only [List.length_append, List.length_nil, List.length_cons]
    push_cast
    omega
  · rfl

theorem Signature.read_reported {raw : Text} (hblank : Text.trim raw ≠ []) :
    Reported 0 raw (read raw 0).2 := by
  cases hparts : parts? (Text.trim raw) with
  | none =>
    rw [read, hparts]
    exact .trimmed hblank (.signature hparts)
  | some parts =>
    obtain ⟨name, parameters⟩ := parts
    rw [read_faults hparts]
    apply Reported.of_pieces _ _ _ ((pieces_entries hparts).sublist (List.filter_sublist.map _)) (fun _ => rfl)
    intro entry hentry
    obtain ⟨hmem, hmalformed⟩ := List.mem_filter.mp hentry
    exact .parameter hparts hmem (Option.isNone_iff_eq_none.mp hmalformed)

/-- The props are the end of the line. -/
theorem props_suffix {t name props : Text} (hparts : componentParts? t = some (name, props)) :
    props <:+ t := by
  simp only [componentParts?, Option.bind_eq_bind, Option.bind_eq_some_iff] at hparts
  obtain ⟨rest, hcolon, ⟨name', rest'⟩, hname, hparts⟩ := hparts
  by_cases hend : rest' = []
  · rw [if_pos hend] at hparts
    cases hparts
    exact List.nil_suffix
  · rw [if_neg hend] at hparts
    obtain ⟨props', hblanks, hparts⟩ := Option.bind_eq_some_iff.mp hparts
    split at hparts
    · cases hparts
      obtain ⟨blanks, rfl, _, _⟩ := Text.eq_of_afterBlanks? hblanks
      obtain rfl := Text.after?_eq_some_iff.mp hcolon
      rw [(Text.eq_of_name? hname).1]
      exact ((List.suffix_append blanks _).trans (List.suffix_append _ _)).trans (List.suffix_append _ _)
    · cases hparts

/-- No equals sign stands in front of what follows the keyword of a declaration. -/
theorem DeclarationKind.eq_of_rest? {kind : DeclarationKind} {t rest : Text} (hrest : kind.rest? t = some rest) :
    ∃ before, t = before ++ rest ∧ '=' ∉ before := by
  obtain ⟨after, hkeyword, hblanks⟩ := Option.bind_eq_some_iff.mp hrest
  obtain ⟨blanks, rfl, hblank, _⟩ := Text.eq_of_afterBlanks? hblanks
  refine ⟨':' :: kind.keyword ++ blanks, ?_, ?_⟩
  · rw [Text.after?_eq_some_iff.mp hkeyword, List.append_assoc]
  · intro hmem
    obtain hkey | hin := List.mem_append.mp hmem
    · cases kind <;> revert hkey <;> decide
    · exact absurd (hblank _ hin) (by decide)

/-- A declaration is cut by its first equals sign. -/
theorem DeclarationParts.eq_of_ofText? {t : Text} {parts : DeclarationParts} (hparts : ofText? t = some parts) :
    ∃ before blanks, t = before ++ '=' :: (blanks ++ parts.value) ∧ '=' ∉ before ∧
      (∀ c ∈ blanks, isBlank c) ∧ parts.value ≠ [] ∧ Text.trimStart parts.value = parts.value := by
  simp only [ofText?, Option.bind_eq_bind, Option.bind_eq_some_iff] at hparts
  obtain ⟨⟨kind, rest⟩, hkind, ⟨name, tail⟩, hname, after, hequals, value, hvalue, hparts⟩ := hparts
  cases hparts
  obtain ⟨before, rfl, hbefore⟩ : ∃ before, t = before ++ rest ∧ '=' ∉ before := by
    simp only [Option.orElse_eq_orElse, Option.orElse_eq_or, Option.or_eq_some_iff] at hkind
    obtain hdata | ⟨_, hstate⟩ := hkind
    · obtain ⟨rest', hrest, hpair⟩ := Option.map_eq_some_iff.mp hdata
      cases hpair
      exact DeclarationKind.eq_of_rest? hrest
    · obtain ⟨rest', hrest, hpair⟩ := Option.map_eq_some_iff.mp hstate
      cases hpair
      exact DeclarationKind.eq_of_rest? hrest
  obtain ⟨rfl, hword⟩ := Text.eq_of_word? hname
  have htail : tail = tail.takeWhile isBlank ++ '=' :: after := by
    rw [← List.takeWhile_append_dropWhile (p := isBlank) (l := tail)]
    congr 1
    · simp
    · exact Text.after?_eq_some_iff.mp hequals
  obtain ⟨hstart, hne⟩ := Text.eq_of_oneLine? hvalue
  refine ⟨before ++ (name ++ tail.takeWhile isBlank), after.takeWhile isBlank, ?_, ?_,
    fun c hc => List.mem_takeWhile_imp hc, hne, ?_⟩
  · nth_rewrite 1 [htail]
    simp only [List.append_assoc]
    rw [← hstart, Text.trimStart, List.takeWhile_append_dropWhile]
  · intro hmem
    obtain hmem | hmem := List.mem_append.mp hmem
    · exact hbefore hmem
    obtain hmem | hmem := List.mem_append.mp hmem
    · exact absurd (hword _ hmem) (by decide)
    · exact absurd (List.mem_takeWhile_imp hmem) (by decide)
  · rw [← hstart]
    exact List.dropWhile_idempotent _ after

section Lines

variable {raw : Text} {line : Nat} {inList : Bool} {reading : Reading}

theorem SourceLine.component?_reported (hline : 0 < line)
    (hread : SourceLine.component? ⟨raw, line, Text.indent raw, inList⟩ = some reading) :
    Reported line raw reading.diagnostics := by
  obtain ⟨⟨name, props⟩, hparts, rfl⟩ := Option.map_eq_some_iff.mp hread
  have hpieces := Text.Pieces.of_suffix (props_suffix hparts) (PropertyToken.pieces_tokens _ props)
  apply Reported.of_pieces _ _ _ (hpieces.sublist (List.filter_sublist.map _)) (fun _ => rfl)
  intro token htoken
  obtain ⟨hmem, hmalformed⟩ := List.mem_filter.mp htoken
  exact .property hline hparts hmem (Option.isNone_iff_eq_none.mp hmalformed)

theorem SourceLine.directive?_reported (hblank : Text.trim raw ≠ []) (hline : 0 < line)
    (hread : SourceLine.directive? ⟨raw, line, Text.indent raw, inList⟩ = some reading) :
    Reported line raw reading.diagnostics := by
  have hcontent {content? : Option Content}
      (hsome : (content?.map fun content => Reading.ofNode (.leaf content)) = some reading) :
      Reported line raw reading.diagnostics := by
    obtain ⟨content, _, rfl⟩ := Option.map_eq_some_iff.mp hsome
    exact .nil _ _
  simp only [SourceLine.directive?, Option.orElse_eq_orElse, Option.orElse_eq_or,
    Option.or_eq_some_iff] at hread
  obtain hloop | ⟨_, hguard | ⟨_, hfetch | ⟨_, hscript | ⟨_, hmalformed⟩⟩⟩⟩ := hread
  · exact hcontent hloop
  · exact hcontent hguard
  · obtain ⟨parts, _, rfl⟩ := Option.map_eq_some_iff.mp hfetch
    exact .nil _ _
  · exact hcontent hscript
  · split at hmalformed
    · rename_i name props hparts
      split at hmalformed
      · rename_i hreserved
        cases hmalformed
        exact .trimmed hblank (.directive hline hparts (List.contains_iff_mem.mp hreserved))
      · cases hmalformed
    · cases hmalformed

/-- The value of a declaration is the trimmed text behind the first equals sign of the line. -/
theorem DeclarationParts.cut_eq {parts : DeclarationParts} (hparts : ofText? (Text.trim raw) = some parts) :
    ∃ before after, Text.cut '=' raw = (before, some after) ∧ Text.trim after = parts.value ∧
      (before.length + 1 + Text.indent after : Int) =
        Text.indent raw + ((Text.trim raw).length - parts.value.length) := by
  obtain ⟨before, blanks, htrim, hbefore, hblanks, hne, hstart⟩ := eq_of_ofText? hparts
  obtain ⟨trail, htrail, hraw⟩ := Text.exists_blanks raw
  have hvalue : Text.trim parts.value = parts.value := by
    apply Text.trim_of_suffix (Text.trim_trim raw) ?_ hstart
    exact ⟨before ++ '=' :: blanks, by simp [htrim]⟩
  obtain ⟨hafter, hindent⟩ := Text.trim_between hblanks htrail hne hvalue
  refine ⟨raw.takeWhile isBlank ++ before, blanks ++ parts.value ++ trail, ?_, hafter, ?_⟩
  · have hfree : '=' ∉ raw.takeWhile isBlank ++ before := by
      intro hmem
      obtain hmem | hmem := List.mem_append.mp hmem
      · exact absurd (List.mem_takeWhile_imp hmem) (by decide)
      · exact hbefore hmem
    rw [← Text.cut_append hfree]
    congr 1
    rw [htrim] at hraw
    simpa using hraw
  · have hlength := congrArg List.length htrim
    simp only [List.length_append, List.length_cons] at hlength
    rw [hindent, List.length_append, show (raw.takeWhile isBlank).length = Text.indent raw from rfl]
    push_cast
    omega

theorem SourceLine.declaration?_reported (hline : 0 < line)
    (hread : SourceLine.declaration? ⟨raw, line, Text.indent raw, inList⟩ = some reading) :
    Reported line raw reading.diagnostics := by
  obtain ⟨parts, hparts, rfl⟩ := Option.map_eq_some_iff.mp hread
  obtain ⟨before, blanks, htrim, _, _, hne, _⟩ := DeclarationParts.eq_of_ofText? hparts
  obtain ⟨lead, after, hcut, hafter, hcolumn⟩ := DeclarationParts.cut_eq hparts
  cases hvalue : Value.declared parts.value with
  | ok value => exact .nil _ _
  | error error =>
    have hsuffix : parts.value <:+ Text.trim raw := ⟨before ++ '=' :: blanks, by
      rw [List.append_assoc, List.cons_append]
      exact htrim.symm⟩
    have hreports := Reports.value hline parts.kind parts.name hcut (hafter.symm ▸ hvalue)
    rw [hafter, hcolumn] at hreports
    exact .of_suffix hsuffix hne rfl hreports

/-- The faults of a line below the signature. -/
theorem SourceLine.read?_reported (hblank : Text.trim raw ≠ []) (hline : 0 < line)
    (hread : SourceLine.read? ⟨raw, line, Text.indent raw, inList⟩ = some reading) :
    Reported line raw reading.diagnostics := by
  simp only [SourceLine.read?, Option.orElse_eq_orElse, Option.orElse_eq_or,
    Option.or_eq_some_iff] at hread
  obtain hcomment | ⟨_, hdeclaration | ⟨_, hdirective | ⟨_, hcomponent | ⟨_, hprose⟩⟩⟩⟩ := hread
  · obtain ⟨text, _, rfl⟩ := Option.map_eq_some_iff.mp hcomment
    exact .nil _ _
  · exact declaration?_reported hline hdeclaration
  · exact directive?_reported hblank hline hdirective
  · exact component?_reported hline hcomponent
  · obtain ⟨node, _, rfl⟩ := Option.map_eq_some_iff.mp hprose
    exact .nil _ _

end Lines

end ViewMarkup
