import ViewMarkup.Proofs.Numeral.Whole
import ViewMarkup.Proofs.React.Imports
import ViewMarkup.Proofs.React.MarkupLines
import ViewMarkup.Proofs.Signature.Coverage
import ViewMarkup.Proofs.Text.Lines
import ViewMarkup.Proofs.Text.Words

namespace ViewMarkup

/-- The parameters that a first line declares. -/
def Signature.declared (first : Text) : List Parameter :=
  (Signature.read first 0).1.parameters

/-- What is known of a parameter that was read: its name is a name, and its type is on one line. -/
structure Parameter.IsRead (parameter : Parameter) : Prop where
  name : Text.IsName parameter.name
  type : '\n' ∉ parameter.type

/-- Names start with ASCII word characters. -/
theorem toNat_lt_of_isNameStart {c : Char} (hstart : isNameStart c) : c.toNat < 128 := by
  obtain hletter | hscore := Bool.or_eq_true_iff.mp hstart
  · exact (toNat_le_of_isAlpha hletter).trans_lt (by decide)
  · rw [eq_of_beq hscore]
    decide

theorem isWord_of_isNameStart {c : Char} (hstart : isNameStart c) : isWord c := by
  obtain hletter | hscore := Bool.or_eq_true_iff.mp hstart
  · exact isWord_of_isAlpha hletter
  · rw [eq_of_beq hscore]
    rfl

theorem ParameterEntry.isRead_of_parameter? {t : Text} {parameter : Parameter}
    (hread : parameter? t = some parameter) : parameter.IsRead := by
  unfold parameter? at hread
  split at hread
  · cases hread
  · rename_i head rest
    split at hread
    · cases hread
    rename_i hstart
    have hhead : isNameStart head := by simpa using hstart
    dsimp only at hread
    split at hread
    · rename_i type _
      split at hread
      · cases hread
      · rename_i htype
        cases hread
        have hline : '\n' ∉ Text.trimStart type := by
          simpa [Text.isOneLine] using (not_or.mp htype).2
        refine ⟨⟨⟨head, ?_, hhead⟩, fun c hc => List.mem_takeWhile_imp hc⟩, Text.not_mem_trim hline⟩
        rw [List.takeWhile_cons_of_pos (isWord_of_isNameStart hhead)]
        rfl
    · cases hread

theorem Signature.isRead_of_mem_declared {first : Text} {parameter : Parameter}
    (hparameter : parameter ∈ Signature.declared first) : parameter.IsRead := by
  unfold declared at hparameter
  cases hparts : parts? (Text.trim first) with
  | none =>
    rw [read, hparts] at hparameter
    cases hparameter
  | some parts =>
    rw [parameters_read hparts] at hparameter
    obtain ⟨entry, _, hread⟩ := List.mem_filterMap.mp hparameter
    exact ParameterEntry.isRead_of_parameter? hread

/-- A document has the parameters that its first line declares; a blank line declares none. -/
theorem Document.parameters_ofText {t first : Text} {body : List Text} (hlines : Text.lines t = first :: body) :
    ((ofText t).signature?.getD ⟨React.defaultName, []⟩).parameters = Signature.declared first := by
  by_cases hblank : Text.trim first = []
  · have hnone : (ofText t).signature? = none := by simp [ofText, read, hlines, ofLines, hblank]
    rw [hnone, Signature.declared, Signature.read, hblank]
    rfl
  · rw [ofText_of_lines hlines hblank]
    rfl

namespace React

/-- A character as it stands in the name of a prop: one beyond ASCII becomes an underscore. -/
def masked (c : Char) : Char :=
  if c.toNat < 128 then c else '_'

/-- Two characters are equal, or neither can be told from an underscore. -/
def SameMasked (c d : Char) : Prop :=
  c = d ∨ (c = '_' ∨ 128 ≤ c.toNat) ∧ (d = '_' ∨ 128 ≤ d.toNat)

theorem masked_eq_masked_iff {c d : Char} : masked c = masked d ↔ SameMasked c d := by
  have hscore : '_'.toNat < 128 := by decide
  unfold masked SameMasked
  grind

theorem masked_eq_self_iff {c : Char} : masked c = c ↔ c.toNat < 128 := by
  unfold masked
  split_ifs with hascii
  · exact iff_of_true rfl hascii
  · refine iff_of_false (fun hscore => hascii ?_) hascii
    rw [← hscore]
    decide

theorem toNat_lt_of_isAlphanum {c : Char} (halphanum : c.isAlphanum) : c.toNat < 128 := by
  obtain hletter | hdigit := Bool.or_eq_true_iff.mp halphanum
  · exact (toNat_le_of_isAlpha hletter).trans_lt (by decide)
  · exact (toNat_lt_of_isDigit hdigit).trans (by decide)

/-- In a name only characters beyond ASCII are replaced. -/
theorem parameterName_eq {name : Text} (hword : ∀ c ∈ name, isWord c) : parameterName name = name.map masked := by
  refine List.map_congr_left fun c hc => ?_
  have hc := hword c hc
  unfold isWord at hc
  unfold masked
  split_ifs at hc with hascii
  · rw [if_pos hc, if_pos hascii]
  · rw [if_neg hascii, if_neg]
    intro hkept
    obtain halphanum | hscore := Bool.or_eq_true_iff.mp hkept
    · exact hascii (toNat_lt_of_isAlphanum halphanum)
    · rw [eq_of_beq hscore] at hascii
      exact hascii (by decide)

theorem isName_map_masked {name : Text} (hname : Text.IsName name) : Text.IsName (name.map masked) := by
  obtain ⟨c, rest, rfl, hstart⟩ := hname.exists_cons
  refine ⟨⟨c, ?_, hstart⟩, List.forall_mem_map.mpr fun d hd => ?_⟩
  · rw [List.map_cons, masked_eq_self_iff.mpr (toNat_lt_of_isNameStart hstart)]
    rfl
  · unfold masked
    split_ifs
    · exact hname.word d hd
    · rfl

theorem map_masked_eq_iff {a b : Text} : a.map masked = b.map masked ↔ List.Forall₂ SameMasked a b := by
  rw [← List.forall₂_eq_eq_eq, List.forall₂_map_left_iff, List.forall₂_map_right_iff]
  simp only [masked_eq_masked_iff]

/-- The name of a prop is the declared name exactly if that is ASCII. -/
theorem map_masked_eq_self_iff {names : List Text} :
    names.map (List.map masked) = names ↔ ∀ name ∈ names, ∀ c ∈ name, c.toNat < 128 := by
  have hself {α : Type} (f : α → α) (items : List α) : items.map f = items ↔ ∀ item ∈ items, f item = item := by
    simpa using List.map_inj_left (f := f) (g := id) (l := items)
  simp only [hself, masked_eq_self_iff]

/-- The names that the head of a function takes from its props: those between the braces behind its first
parenthesis. -/
def takenNames (head : Text) : List Text :=
  match (Text.cut '(' head).2 with
  | some ('\x7b' :: list) => (Text.split ',' (Text.cut '\x7d' list).1).map Text.trim
  | _ => []

/-- The name of a field: what stands before its question mark or colon. -/
def fieldName (line : Text) : Text :=
  (Text.trimStart line).takeWhile fun c => c != '?' && c != ':'

/-- What a module calls its parameters. -/
structure Shell where
  /-- The fields of the type of the props. -/
  fields : List Text
  /-- The names that the function takes from its props. -/
  taken : List Text
  deriving DecidableEq, Repr

namespace Shell

/-- Reads the line that opens the function, below a type with the given fields. -/
def open? (fields : List Text) (line : Text) : Option Shell :=
  (Text.after? "export default function " line).map fun head => ⟨fields, takenNames head⟩

/-- Reads the lines behind the imports: the type of the props if there is one, and the line that opens the
function. -/
def read? : List Text → Option Shell
  | [] => none
  | line :: lines =>
    if (Text.after? "type " line).isSome then
      match lines.dropWhile (· != "\x7d;".toList) with
      | _ :: _ :: opening :: _ => open? ((lines.takeWhile (· != "\x7d;".toList)).map fieldName) opening
      | _ => none
    else open? [] line

end Shell

section Lines

variable {names : List Text}

/-- A name between blanks is all that trimming leaves. -/
theorem trim_name_between {name : Text} (hname : Text.IsName name) {blanks trail : Text}
    (hblanks : ∀ c ∈ blanks, isBlank c) (htrail : ∀ c ∈ trail, isBlank c) :
    Text.trim (blanks ++ name ++ trail) = name := by
  have hinner : ∀ c ∈ name, isBlank c = false := fun c hc => isBlank_eq_false_of_isWord (hname.word c hc)
  have htrim : Text.trim name = name := Text.trim_eq_self
    (fun c hc => hinner c (List.mem_of_mem_head? hc)) (fun c hc => hinner c (List.mem_of_mem_getLast? hc))
  exact (Text.trim_between hblanks htrail hname.ne_nil htrim).1

/-- A name has none of the characters that words do not have. -/
theorem not_mem_of_isName {name : Text} (hname : Text.IsName name) {c : Char} (hc : isWord c = false) : c ∉ name := by
  intro hmem
  rw [hname.word c hmem] at hc
  cases hc

/-- The names of a list between braces are read again. -/
theorem map_trim_split_join (hne : names ≠ []) (hnames : ∀ name ∈ names, Text.IsName name) :
    (Text.split ',' ([' '] ++ Text.join ", " names ++ [' '])).map Text.trim = names := by
  have hblank : ∀ c ∈ [' '], isBlank c := List.all_eq_true.mp (by decide)
  induction names with
  | nil => exact absurd rfl hne
  | cons name names ih =>
    obtain ⟨hname, hnames⟩ := List.forall_mem_cons.mp hnames
    have hcomma : ',' ∉ name := not_mem_of_isName hname (by decide)
    by_cases hnil : names = []
    · have hsingle : ',' ∉ [' '] ++ name ++ [' '] := by simp [hcomma]
      rw [hnil, Text.join, List.intercalate_singleton, Text.split_of_not_mem hsingle, List.map_singleton,
        trim_name_between hname hblank hblank]
    · have hfirst : ',' ∉ [' '] ++ name := by simp [hcomma]
      have hjoin : [' '] ++ Text.join ", " (name :: names) ++ [' '] =
          ([' '] ++ name) ++ ',' :: ([' '] ++ Text.join ", " names ++ [' ']) := by
        rw [Text.join, List.intercalate_cons_of_ne_nil hnil]
        simp [Text.join]
      have htrim := trim_name_between hname hblank (List.forall_mem_nil _)
      rw [List.append_nil] at htrim
      rw [hjoin, Text.split_append hfirst, List.map_cons, ih hnil hnames, htrim]

variable {parameters : List Parameter}

/-- What parameters are called in a module. -/
def propNames (parameters : List Parameter) : List Text :=
  parameters.map fun parameter => parameter.name.map masked

theorem isName_of_mem_propNames (hread : ∀ parameter ∈ parameters, parameter.IsRead) :
    ∀ name ∈ propNames parameters, Text.IsName name :=
  List.forall_mem_map.mpr fun parameter hparameter => isName_map_masked (hread parameter hparameter).name

theorem map_parameterName (hread : ∀ parameter ∈ parameters, parameter.IsRead) :
    (parameters.map fun parameter => parameterName parameter.name) = propNames parameters :=
  List.map_congr_left fun parameter hparameter => parameterName_eq (hread parameter hparameter).name.word

theorem takenNames_append {name list : Text} (hname : '(' ∉ name) (hlist : '\x7d' ∉ list) (rest : Text) :
    takenNames (name ++ '(' :: '\x7b' :: (list ++ '\x7d' :: rest)) = (Text.split ',' list).map Text.trim := by
  rw [takenNames, Text.cut_append hname]
  change (Text.split ',' (Text.cut '\x7d' (list ++ '\x7d' :: rest)).1).map Text.trim = _
  rw [Text.cut_append hlist]

/-- The line that opens a function names its props. -/
theorem open?_functionLine (hread : ∀ parameter ∈ parameters, parameter.IsRead) {name : Text}
    (hname : ∀ c ∈ name, isWord c) (component : Text) (fields : List Text) :
    Shell.open? fields (functionLine ⟨component, parameters⟩ name) = some ⟨fields, propNames parameters⟩ := by
  have hparenthesis : '(' ∉ name := fun hmem => absurd (hname _ hmem) (by decide)
  have htaken : ∃ head, functionLine ⟨component, parameters⟩ name = "export default function ".toList ++ head ∧
      takenNames head = propNames parameters := by
    cases hparameters : parameters with
    | nil =>
      refine ⟨name ++ '(' :: ") \x7b".toList, List.append_assoc _ _ _, ?_⟩
      rw [takenNames, Text.cut_append hparenthesis]
      rfl
    | cons first rest =>
      rw [← hparameters]
      have hnames := isName_of_mem_propNames hread
      have hne : propNames parameters ≠ [] := by simp [propNames, hparameters]
      have hjoin : '\x7d' ∉ Text.join ", " (propNames parameters) :=
        Text.not_mem_join (by decide) fun piece hpiece => not_mem_of_isName (hnames piece hpiece) (by decide)
      have hbrace : '\x7d' ∉ [' '] ++ Text.join ", " (propNames parameters) ++ [' '] := by simpa using hjoin
      refine ⟨name ++ '(' :: '\x7b' :: (([' '] ++ Text.join ", " (propNames parameters) ++ [' ']) ++
        '\x7d' :: (": ".toList ++ name ++ "Props) \x7b".toList)), ?_, ?_⟩
      · unfold functionLine
        rw [hparameters]
        dsimp only
        rw [← hparameters, map_parameterName hread]
        have hopen : "(\x7b ".toList = ['(', '\x7b', ' '] := rfl
        have hclose : " \x7d: ".toList = [' ', '\x7d', ':', ' '] := rfl
        have hcolon : ": ".toList = [':', ' '] := rfl
        rw [hopen, hclose, hcolon]
        simp only [List.append_assoc, List.cons_append, List.nil_append]
      · rw [takenNames_append hparenthesis hbrace, map_trim_split_join hne hnames]
  obtain ⟨head, hline, hhead⟩ := htaken
  rw [Shell.open?, Text.after?_eq_some_iff.mpr hline, Option.map_some, hhead]

theorem newline_not_mem_functionLine (hread : ∀ parameter ∈ parameters, parameter.IsRead) {name : Text}
    (hname : ∀ c ∈ name, isWord c) (component : Text) : '\n' ∉ functionLine ⟨component, parameters⟩ name := by
  have hline : '\n' ∉ name := fun hmem => absurd (hname _ hmem) (by decide)
  have hjoin : '\n' ∉ Text.join ", " (propNames parameters) :=
    Text.not_mem_join (by decide) fun piece hpiece =>
      not_mem_of_isName (isName_of_mem_propNames hread piece hpiece) (by decide)
  rw [← map_parameterName hread] at hjoin
  have htexts : ∀ piece ∈ ["export default function ", "() \x7b", "(\x7b ", " \x7d: ", "Props) \x7b"],
      '\n' ∉ piece.toList := by decide
  simp only [List.forall_mem_cons] at htexts
  obtain ⟨hexport, hempty, hopen, hclose, hprops, _⟩ := htexts
  unfold functionLine
  cases parameters with
  | nil =>
    dsimp only
    rw [List.mem_append, List.mem_append]
    simp only [hexport, hline, hempty, or_self, not_false_eq_true]
  | cons first rest =>
    dsimp only
    simp only [List.mem_append, hexport, hline, hopen, hjoin, hclose, hprops, or_self, not_false_eq_true]

/-- The line of a field in the type of the props. -/
def fieldLine (unit : Text) (parameter : Parameter) : Text :=
  unit ++ parameterName parameter.name ++ (if parameter.isOptional then "?".toList else "".toList) ++ ": " ++
    parameter.type ++ ";"

section Field

variable {unit : Text} {parameter : Parameter}

/-- A field is a name, and then a question mark or a colon. -/
theorem exists_fieldLine (hread : parameter.IsRead) (unit : Text) :
    ∃ c rest, fieldLine unit parameter = unit ++ (parameter.name.map masked ++ c :: rest) ∧
      (c = '?' ∨ c = ':') ∧ '\n' ∉ rest := by
  have hmark : "?".toList = ['?'] := rfl
  have hcolon : ": ".toList = [':', ' '] := rfl
  have hend : ";".toList = [';'] := rfl
  unfold fieldLine
  rw [parameterName_eq hread.name.word, hmark, hcolon, hend]
  cases parameter.isOptional with
  | false => exact ⟨':', ' ' :: (parameter.type ++ [';']), by simp, .inr rfl, by simp [hread.type]⟩
  | true => exact ⟨'?', ':' :: ' ' :: (parameter.type ++ [';']), by simp, .inl rfl, by simp [hread.type]⟩

theorem fieldName_fieldLine (hunit : ∀ c ∈ unit, c = ' ') (hread : parameter.IsRead) :
    fieldName (fieldLine unit parameter) = parameter.name.map masked := by
  obtain ⟨c, rest, hline, hc, _⟩ := exists_fieldLine hread unit
  have hname := isName_map_masked hread.name
  have hblanks : ∀ d ∈ unit, isBlank d := fun d hd => hunit d hd ▸ rfl
  have hstart : ∀ d ∈ (parameter.name.map masked ++ c :: rest).head?, isBlank d = false := by
    obtain ⟨d, tail, hcons, hstart⟩ := hname.exists_cons
    rw [hcons]
    rintro _ ⟨⟩
    exact isBlank_eq_false_of_isWord (hname.word d (hcons ▸ List.mem_cons_self))
  rw [fieldName, hline, Text.trimStart_append hblanks hstart]
  refine Text.takeWhile_append_of_head (fun d hd => ?_) ?_
  · have hmark : d ≠ '?' := ne_of_mem_of_not_mem hd (not_mem_of_isName hname (by decide))
    have hcolon : d ≠ ':' := ne_of_mem_of_not_mem hd (not_mem_of_isName hname (by decide))
    simp [hmark, hcolon]
  · rintro _ ⟨⟩
    obtain rfl | rfl := hc <;> rfl

theorem newline_not_mem_fieldLine (hunit : ∀ c ∈ unit, c = ' ') (hread : parameter.IsRead) :
    '\n' ∉ fieldLine unit parameter := by
  obtain ⟨c, rest, hline, hc, hrest⟩ := exists_fieldLine hread unit
  have hname : '\n' ∉ parameter.name.map masked := not_mem_of_isName (isName_map_masked hread.name) (by decide)
  have hblank : '\n' ∉ unit := fun hmem => absurd (hunit _ hmem) (by decide)
  have hmark : '\n' ≠ c := by obtain rfl | rfl := hc <;> decide
  rw [hline, List.mem_append, List.mem_append, List.mem_cons]
  simp only [hblank, hname, hmark, hrest, or_self, not_false_eq_true]

/-- The brace that closes the type is told from a field by the name. -/
theorem fieldLine_ne_close (hunit : ∀ c ∈ unit, c = ' ') (hread : parameter.IsRead) :
    fieldLine unit parameter ≠ "\x7d;".toList := by
  intro hclose
  have hname := fieldName_fieldLine hunit hread
  rw [hclose] at hname
  exact not_mem_of_isName (isName_map_masked hread.name) (c := '\x7d') (by decide) (hname ▸ by decide)

end Field

/-- The type of the props has a line for each field, and one before and behind them. -/
theorem split_propsType {unit name : Text} (hunit : ∀ c ∈ unit, c = ' ') (hname : ∀ c ∈ name, isWord c)
    (hread : ∀ parameter ∈ parameters, parameter.IsRead) (component : Text) :
    Text.split '\n' (propsType ⟨component, parameters⟩ name unit) =
      ("type " ++ name ++ "Props = \x7b") :: (parameters.map (fieldLine unit) ++ ["\x7d;".toList]) := by
  have hopen : '\n' ∉ "type " ++ name ++ "Props = \x7b" := by
    have hline : '\n' ∉ name := fun hmem => absurd (hname _ hmem) (by decide)
    have htype : '\n' ∉ "type ".toList := by decide
    have hprops : '\n' ∉ "Props = \x7b".toList := by decide
    rw [List.mem_append, List.mem_append]
    simp only [hline, htype, hprops, or_self, not_false_eq_true]
  have hfields : (parameters.map (fieldLine unit)).flatMap (Text.split '\n') = parameters.map (fieldLine unit) := by
    rw [List.flatMap_map, List.map_eq_flatMap]
    exact List.flatMap_congr fun parameter hparameter =>
      Text.split_of_not_mem (newline_not_mem_fieldLine hunit (hread parameter hparameter))
  have hclose : Text.split '\n' "\x7d;" = ["\x7d;".toList] := by decide
  change Text.split '\n' (Text.join "\n" (["type " ++ name ++ "Props = \x7b"] ++ parameters.map (fieldLine unit) ++
    ["\x7d;".toList])) = _
  rw [Text.split_join (by simp), List.flatMap_append, List.flatMap_append, hfields, List.flatMap_singleton,
    List.flatMap_singleton, Text.split_of_not_mem hopen, hclose]
  rfl

/-- The lines of a module behind its imports name the props. -/
theorem read?_append {unit name : Text} (hunit : ∀ c ∈ unit, c = ' ') (hname : ∀ c ∈ name, isWord c)
    (hread : ∀ parameter ∈ parameters, parameter.IsRead) (component : Text) (rest : List Text) :
    Shell.read? ((if parameters = [] then [] else [propsType ⟨component, parameters⟩ name unit, []]).flatMap
      (Text.split '\n') ++ functionLine ⟨component, parameters⟩ name :: rest) =
      some ⟨propNames parameters, propNames parameters⟩ := by
  have hopening := open?_functionLine hread hname component
  split_ifs with hnone
  · have hfunction : Text.after? "type " (functionLine ⟨component, parameters⟩ name) = none := by
      rw [hnone]
      rfl
    rw [List.flatMap_nil, List.nil_append, Shell.read?, hfunction, Option.isSome_none, if_neg Bool.false_ne_true,
      hopening, hnone]
    rfl
  · have hfields : ∀ line ∈ parameters.map (fieldLine unit), (line != "\x7d;".toList) = true :=
      List.forall_mem_map.mpr fun parameter hparameter =>
        bne_iff_ne.mpr (fieldLine_ne_close hunit (hread parameter hparameter))
    have hnames : (parameters.map (fieldLine unit)).map fieldName = propNames parameters := by
      rw [List.map_map]
      exact List.map_congr_left fun parameter hparameter => fieldName_fieldLine hunit (hread parameter hparameter)
    have htype : (Text.after? "type " ("type " ++ name ++ "Props = \x7b")).isSome = true :=
      Option.isSome_iff_exists.mpr ⟨_, Text.after?_eq_some_iff.mpr (List.append_assoc _ _ _)⟩
    have hempty : Text.split '\n' [] = [[]] := rfl
    rw [List.flatMap_cons, List.flatMap_singleton, split_propsType hunit hname hread, hempty, List.cons_append,
      List.cons_append, Shell.read?, if_pos htype]
    simp only [List.append_assoc, List.cons_append, List.nil_append]
    rw [List.dropWhile_append_of_pos hfields, List.takeWhile_append_of_pos hfields,
      List.dropWhile_cons_of_neg (by simp), List.takeWhile_cons_of_neg (by simp), List.append_nil, hnames]
    exact hopening _

end Lines

section Document

/-- The lines of a module up to the empty line behind its imports. -/
def importSection (document : Document) (resolver : Resolver) (options : Options) : List Text :=
  [header] ++ importLines (componentNames document.nodes) (identifier document.signatureName) resolver
    document.imports (document.contents.flatMap hooks).eraseDups options.runtimeModule options.routerModule ++ [[]]

/-- The props of a module are the parameters that the first line declares. -/
theorem exists_shell {t : Text} {resolver : Resolver} {options : Options} {first code : Text} {body : List Text}
    (hlines : Text.lines t = first :: body)
    (hcode : generate (Document.ofText t) resolver options = .ok code) :
    ∃ lines, Text.split '\n' code =
        Text.split '\n' (Text.join "\n" (importSection (Document.ofText t) resolver options)) ++ lines ∧
      Shell.read? lines = some ⟨propNames (Signature.declared first), propNames (Signature.declared first)⟩ := by
  obtain ⟨emitted, hruntime, hmodule⟩ := exists_emitted hcode
  have hread : ∀ parameter ∈ Signature.declared first, parameter.IsRead := fun parameter =>
    Signature.isRead_of_mem_declared
  have hunit : ∀ c ∈ options.unit, c = ' ' := fun c hc => List.mem_singleton.mp (Text.mem_of_mem_times hc)
  have hsignature : (Document.ofText t).signature?.getD ⟨defaultName, []⟩ =
      ⟨(Document.ofText t).signatureName, Signature.declared first⟩ := by
    rw [← Document.parameters_ofText hlines]
    unfold Document.signatureName
    cases (Document.ofText t).signature? <;> rfl
  have hname : ∀ c ∈ identifier (Document.ofText t).signatureName, isWord c := fun c => isWord_of_mem_identifier
  unfold moduleText at hmodule
  dsimp only at hmodule
  rw [hsignature, hruntime] at hmodule
  obtain ⟨rest, hparts⟩ := exists_moduleLines options.unit
    ⟨(Document.ofText t).signatureName, Signature.declared first⟩ _
    (forestMarkup options.unit 3 (Document.ofText t).nodes) emitted
  rw [hparts] at hmodule
  refine ⟨_, ?_, read?_append hunit hname hread (Document.ofText t).signatureName (rest.flatMap (Text.split '\n'))⟩
  rw [hmodule, Text.split_join (by simp), Text.split_join (by simp [importSection])]
  have hfunction := Text.split_of_not_mem
    (newline_not_mem_functionLine hread hname (Document.ofText t).signatureName)
  simp only [importSection, List.append_assoc, List.cons_append, List.nil_append, List.flatMap_append,
    List.flatMap_cons, List.flatMap_nil, hfunction]

/-- A module calls its parameters as the first line does, with an underscore for each character beyond ASCII, in the
same order in the type of the props and in the function. So these are the declared names exactly if all of them are
ASCII, and no two of them coincide exactly if no two declared names differ only in underscores and characters
beyond ASCII. -/
theorem parameters_kept_iff (t : Text) (resolver : Resolver) (options : Options) {first code : Text}
    {body : List Text} (hlines : Text.lines t = first :: body)
    (hcode : generate (Document.ofText t) resolver options = .ok code) :
    ∃ lines shell, Text.split '\n' code =
        Text.split '\n' (Text.join "\n" (importSection (Document.ofText t) resolver options)) ++ lines ∧
      Shell.read? lines = some shell ∧ shell.fields = shell.taken ∧
      shell.taken = ((Signature.declared first).map Parameter.name).map (List.map masked) ∧
      (shell.taken = (Signature.declared first).map Parameter.name ↔
        ∀ parameter ∈ Signature.declared first, ∀ c ∈ parameter.name, c.toNat < 128) ∧
      (shell.taken.Nodup ↔ ((Signature.declared first).map Parameter.name).Pairwise fun a b =>
        ¬ List.Forall₂ SameMasked a b) := by
  obtain ⟨lines, hsplit, hshell⟩ := exists_shell hlines hcode
  have htaken : propNames (Signature.declared first) =
      ((Signature.declared first).map Parameter.name).map (List.map masked) := (List.map_map).symm
  refine ⟨lines, _, hsplit, hshell, rfl, htaken, ?_, ?_⟩
  · rw [htaken, map_masked_eq_self_iff, List.forall_mem_map]
  · rw [htaken, List.Nodup, List.pairwise_map]
    simp only [ne_eq, map_masked_eq_iff]

/-- A page with a parameter beyond ASCII and one that differs from it in an underscore. -/
def accentedParameters : Text :=
  "Page(naïve:string, na_ve?:number)\n- a"

theorem parameters_kept_iff_accented :
    ∃ (code : Text) (lines : List Text) (shell : Shell),
      generate (Document.ofText accentedParameters) Resolver.default Options.default = .ok code ∧
      Text.split '\n' code = Text.split '\n' (Text.join "\n"
        (importSection (Document.ofText accentedParameters) Resolver.default Options.default)) ++ lines ∧
      Shell.read? lines = some shell ∧ shell.fields = shell.taken ∧
      shell.taken = ["na_ve".toList, "na_ve".toList] := by
  have hlines : Text.lines accentedParameters = ["Page(naïve:string, na_ve?:number)".toList, "- a".toList] := by
    decide +kernel
  have hfailure : (Document.ofText accentedParameters).contents.findSome? contentFailure? = none := by decide +kernel
  have hcode := generate_ofText accentedParameters Resolver.default Options.default
  rw [hfailure] at hcode
  obtain ⟨lines, shell, hsplit, hshell, hfields, htaken, _, _⟩ :=
    parameters_kept_iff accentedParameters Resolver.default Options.default hlines hcode
  exact ⟨_, lines, shell, hcode, hsplit, hshell, hfields, htaken.trans (by decide +kernel)⟩

/-- A page that shows a parameter beyond ASCII. -/
def accentedParameter : Text :=
  "Page(naïve:string)\n\x7bnaïve\x7d"

/-- The parameter is read without a fault, and the markup still refers to it by its name, but the function does not
take it under that name. -/
theorem accented_parameter_renamed :
    Signature.read "Page(naïve:string)" 0 = (⟨"Page", [⟨"naïve", "string", false⟩]⟩, []) ∧
      generate (Document.ofText accentedParameter) Resolver.default Options.default = .ok
        (Text.join "\n" ["// AUTO-GENERATED by lunor", "", "type PageProps = \x7b", "  na_ve: string;", "\x7d;", "",
          "export default function Page(\x7b na_ve \x7d: PageProps) \x7b", "  return (", "    <>",
          "      <div>\x7bnaïve\x7d</div>", "    </>", "  );", "\x7d", ""]) := by
  constructor
  · decide +kernel
  · decide +kernel

end Document

end React

end ViewMarkup
