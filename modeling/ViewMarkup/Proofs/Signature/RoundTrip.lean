import ViewMarkup.Proofs.Line.Names
import ViewMarkup.Proofs.Signature.Separators
import ViewMarkup.Proofs.Text.Lines
import ViewMarkup.Proofs.Text.Words

namespace ViewMarkup

/-- A parameter as it is written: with blanks around it and around its colon. -/
structure WrittenParameter where
  parameter : Parameter
  before : Text
  beforeColon : Text
  afterColon : Text
  after : Text

namespace WrittenParameter

/-- The parameter without the blanks around it. -/
def body (written : WrittenParameter) : Text :=
  written.parameter.name ++ ((if written.parameter.isOptional then ['?'] else []) ++
    (written.beforeColon ++ ':' :: (written.afterColon ++ written.parameter.type)))

def text (written : WrittenParameter) : Text :=
  written.before ++ written.body ++ written.after

/-- The name is a name, the type is a trimmed text in one line, and only blanks stand around them. -/
structure WellFormed (written : WrittenParameter) : Prop where
  isName : Text.IsName written.parameter.name
  type_ne_nil : written.parameter.type ≠ []
  type_trim : Text.trim written.parameter.type = written.parameter.type
  type_oneLine : '\n' ∉ written.parameter.type
  before_isGap : Text.IsGap written.before
  beforeColon_isGap : Text.IsGap written.beforeColon
  afterColon_isGap : Text.IsGap written.afterColon
  after_isGap : Text.IsGap written.after

instance (written : WrittenParameter) : Decidable written.WellFormed :=
  decidable_of_iff (Text.IsName written.parameter.name ∧ written.parameter.type ≠ [] ∧
      Text.trim written.parameter.type = written.parameter.type ∧ '\n' ∉ written.parameter.type ∧
      Text.IsGap written.before ∧ Text.IsGap written.beforeColon ∧ Text.IsGap written.afterColon ∧
      Text.IsGap written.after)
    ⟨fun ⟨hname, hne, htrim, hline, hbefore, hbeforeColon, hafterColon, hafter⟩ =>
        ⟨hname, hne, htrim, hline, hbefore, hbeforeColon, hafterColon, hafter⟩,
      fun ⟨hname, hne, htrim, hline, hbefore, hbeforeColon, hafterColon, hafter⟩ =>
        ⟨hname, hne, htrim, hline, hbefore, hbeforeColon, hafterColon, hafter⟩⟩

end WrittenParameter

/-- The line that declares a component with its parameters. -/
def Signature.written (name : Text) (parameters : List WrittenParameter) : Text :=
  name ++ '(' :: (Text.join "," (parameters.map WrittenParameter.text) ++ [')'])

theorem Text.isBlank_head_of_words {t : Text} (hword : ∀ c ∈ t, isWord c) : ∀ c ∈ t.head?, isBlank c = false :=
  fun c hc => isBlank_eq_false_of_isWord (hword c (List.mem_of_mem_head? hc))

namespace ParameterEntry

/-- The characters that decide where a list is cut, one by one. -/
theorem mem_of_isMark {c : Char} (hmark : isMark c) :
    c ∈ ['(', '[', '\x7b', '<', ')', ']', '\x7d', '>', ','] := by
  simpa [isMark, isOpening, isClosing, or_assoc] using hmark

theorem isMark_eq_false_of_isWord {c : Char} (hword : isWord c) : isMark c = false := by
  by_contra hmark
  have hall : ['(', '[', '\x7b', '<', ')', ']', '\x7d', '>', ','].all (fun c => !isWord c) = true := by decide
  have hnot := List.all_eq_true.mp hall c (mem_of_isMark (by simpa using hmark))
  simp [hword] at hnot

theorem isMark_eq_false_of_isBlank {c : Char} (hblank : isBlank c) : isMark c = false := by
  by_contra hmark
  have hall : ['(', '[', '\x7b', '<', ')', ']', '\x7d', '>', ','].all (fun c => !isBlank c) = true := by decide
  have hnot := List.all_eq_true.mp hall c (mem_of_isMark (by simpa using hmark))
  simp [hblank] at hnot

end ParameterEntry

namespace WrittenParameter

open ParameterEntry

variable {written : WrittenParameter}

/-- What stands in front of the type: the name, the question mark and the colon, with blanks around the colon. -/
def lead (written : WrittenParameter) : Text :=
  written.parameter.name ++ ((if written.parameter.isOptional then ['?'] else []) ++
    (written.beforeColon ++ ':' :: written.afterColon))

theorem body_eq (written : WrittenParameter) : written.body = written.lead ++ written.parameter.type := by
  simp [body, lead]

namespace WellFormed

theorem mark_of_lead (hwritten : written.WellFormed) : ∀ c ∈ written.lead, isMark c = false := by
  intro c hc
  simp only [lead, List.mem_append, List.mem_cons] at hc
  obtain hname | hmark | hbefore | rfl | hafter := hc
  · exact isMark_eq_false_of_isWord (hwritten.isName.word c hname)
  · split at hmark
    · obtain rfl := List.mem_singleton.mp hmark
      rfl
    · cases hmark
  · exact isMark_eq_false_of_isBlank (hwritten.beforeColon_isGap c hbefore).1
  · rfl
  · exact isMark_eq_false_of_isBlank (hwritten.afterColon_isGap c hafter).1

theorem mark_of_before (hwritten : written.WellFormed) : ∀ c ∈ written.before, isMark c = false :=
  fun c hc => isMark_eq_false_of_isBlank (hwritten.before_isGap c hc).1

theorem mark_of_after (hwritten : written.WellFormed) : ∀ c ∈ written.after, isMark c = false :=
  fun c hc => isMark_eq_false_of_isBlank (hwritten.after_isGap c hc).1

/-- The brackets of the text are those of the type. -/
theorem openAfter_text (hwritten : written.WellFormed) :
    openAfter 0 written.text = openAfter 0 written.parameter.type := by
  rw [text, openAfter_append, openAfter_of_plain _ hwritten.mark_of_after, openAfter_append,
    openAfter_of_plain _ hwritten.mark_of_before, body_eq, openAfter_append, openAfter_of_plain _ hwritten.mark_of_lead]

/-- The separators of the text are those of the type. -/
theorem unsplit_text (hwritten : written.WellFormed) (hunsplit : Unsplit 0 written.parameter.type) :
    Unsplit 0 written.text := by
  have hbody : Unsplit 0 written.body := by
    rw [body_eq]
    refine (unsplit_of_plain 0 hwritten.mark_of_lead).append ?_
    rwa [openAfter_of_plain _ hwritten.mark_of_lead]
  refine Unsplit.append ((unsplit_of_plain 0 hwritten.mark_of_before).append ?_)
    (unsplit_of_plain _ hwritten.mark_of_after)
  rwa [openAfter_of_plain _ hwritten.mark_of_before]

theorem body_ne_nil (hwritten : written.WellFormed) : written.body ≠ [] :=
  List.append_ne_nil_of_left_ne_nil hwritten.isName.ne_nil _

theorem trim_body (hwritten : written.WellFormed) : Text.trim written.body = written.body := by
  rw [Text.trim_eq_self_iff]
  constructor
  · rw [body, List.head?_append_of_ne_nil _ hwritten.isName.ne_nil]
    exact Text.isBlank_head_of_words hwritten.isName.word
  · rw [body_eq, List.getLast?_append_of_ne_nil _ hwritten.type_ne_nil]
    exact (Text.trim_eq_self_iff.mp hwritten.type_trim).2

theorem trim_text (hwritten : written.WellFormed) : Text.trim written.text = written.body := by
  exact (Text.trim_between (fun c hc => (hwritten.before_isGap c hc).1) (fun c hc => (hwritten.after_isGap c hc).1)
    hwritten.body_ne_nil hwritten.trim_body).1

/-- Without separators in the type, the parameter is one entry. -/
theorem texts_text (hwritten : written.WellFormed) (hunsplit : Unsplit 0 written.parameter.type)
    (hclosed : openAfter 0 written.parameter.type = 0) : texts written.text = [written.body] := by
  have hbody : Text.trim written.text ≠ [] := by
    rw [hwritten.trim_text]
    exact hwritten.body_ne_nil
  rw [texts_of_closed (hwritten.unsplit_text hunsplit) (hwritten.openAfter_text.trans hclosed) hbody,
    hwritten.trim_text]

/-- Neither a word nor a question mark stands where the blanks in front of the colon, or the colon itself, stand. -/
theorem head_colon (hwritten : written.WellFormed) (rest : Text) :
    ∀ c ∈ (written.beforeColon ++ ':' :: rest).head?, isWord c = false ∧ c ≠ '?' := by
  intro c hc
  cases hgap : written.beforeColon with
  | nil =>
    rw [hgap] at hc
    obtain rfl := Option.mem_some_iff.mp hc
    decide
  | cons blank gap =>
    rw [hgap] at hc
    obtain rfl := Option.mem_some_iff.mp hc
    have hblank : isBlank blank := (hwritten.beforeColon_isGap blank (by rw [hgap]; exact List.mem_cons_self)).1
    refine ⟨isWord_eq_false_of_isBlank hblank, ?_⟩
    rintro rfl
    cases hblank

/-- A written parameter is read back, whatever its type holds. -/
theorem parameter?_body (hwritten : written.WellFormed) : parameter? written.body = some written.parameter := by
  have hhead := hwritten.head_colon (written.afterColon ++ written.parameter.type)
  obtain ⟨⟨name, type, isOptional⟩, before, beforeColon, afterColon, after⟩ := written
  have htype : Text.trimStart (afterColon ++ type) = type :=
    Text.trimStart_append (fun c hc => (hwritten.afterColon_isGap c hc).1)
      (Text.trim_eq_self_iff.mp hwritten.type_trim).1
  have hcolon : Text.trimStart (beforeColon ++ ':' :: (afterColon ++ type)) = ':' :: (afterColon ++ type) :=
    Text.trimStart_append (fun c hc => (hwritten.beforeColon_isGap c hc).1) (by simp; decide)
  have hline : Text.isOneLine type = true := by simpa [Text.isOneLine] using hwritten.type_oneLine
  obtain ⟨c, tail, rfl, hstart⟩ := hwritten.isName.exists_cons
  have hname (rest : Text) (hrest : ∀ d ∈ rest.head?, isWord d = false) :
      (c :: (tail ++ rest)).takeWhile isWord = c :: tail :=
    Text.takeWhile_append_of_head hwritten.isName.word hrest
  cases isOptional with
  | true =>
    have htake := hname ('?' :: (beforeColon ++ ':' :: (afterColon ++ type))) (by simp; decide)
    simp [body, parameter?, hstart, htake, hcolon, htype, hline, hwritten.type_ne_nil, hwritten.type_trim]
  | false =>
    have htake := hname _ fun d hd => (hhead d hd).1
    have hplain (rest : Text) : beforeColon ++ ':' :: (afterColon ++ type) ≠ '?' :: rest := by
      intro heq
      rw [heq] at hhead
      exact (hhead '?' rfl).2 rfl
    have hbody : body ⟨⟨c :: tail, type, false⟩, before, beforeColon, afterColon, after⟩ =
        c :: (tail ++ (beforeColon ++ ':' :: (afterColon ++ type))) := rfl
    rw [hbody]
    generalize beforeColon ++ ':' :: (afterColon ++ type) = colon at *
    simp [parameter?, hstart, htake, hcolon, htype, hline, hwritten.type_ne_nil, hwritten.type_trim]

theorem newline_not_mem_text (hwritten : written.WellFormed) : '\n' ∉ written.text := by
  have hgap {gap : Text} (hgap : Text.IsGap gap) : '\n' ∉ gap := fun hmem => (hgap _ hmem).2 rfl
  have hname : '\n' ∉ written.parameter.name :=
    fun hmem => absurd (hwritten.isName.word _ hmem) (by decide)
  have hmark : '\n' ∉ if written.parameter.isOptional then ['?'] else [] := by split <;> simp
  simp only [text, body, List.mem_append, List.mem_cons, not_or]
  exact ⟨⟨hgap hwritten.before_isGap, hname, hmark, hgap hwritten.beforeColon_isGap, by decide,
    hgap hwritten.afterColon_isGap, hwritten.type_oneLine⟩, hgap hwritten.after_isGap⟩

end WellFormed

end WrittenParameter

namespace Signature

open ParameterEntry

/-- A word and a text in parentheses, on one line, are the parts of a signature. -/
theorem parts?_append {name list : Text} (hne : name ≠ []) (hname : ∀ c ∈ name, isWord c) (hline : '\n' ∉ list) :
    parts? (name ++ '(' :: (list ++ [')'])) = some (name, list) := by
  have htake : (name ++ '(' :: (list ++ [')'])).takeWhile isWord = name :=
    Text.takeWhile_append_of_head hname (by simp; decide)
  have honeLine : Text.isOneLine (list ++ [')']) = true := by simpa [Text.isOneLine] using hline
  rw [parts?, htake]
  cases name with
  | nil => exact absurd rfl hne
  | cons c name => simp [honeLine]

theorem trim_append {name list : Text} (hne : name ≠ []) (hname : ∀ c ∈ name, isWord c) :
    Text.trim (name ++ '(' :: (list ++ [')'])) = name ++ '(' :: (list ++ [')']) := by
  rw [Text.trim_eq_self_iff]
  constructor
  · rw [List.head?_append_of_ne_nil _ hne]
    exact Text.isBlank_head_of_words hname
  · have hlast : (name ++ '(' :: (list ++ [')'])).getLast? = some ')' := by
      rw [← List.cons_append, ← List.append_assoc, List.getLast?_concat]
    rw [hlast]
    rintro c ⟨⟩
    rfl

/-- The parameters are all that is read of a list, and nothing is reported, exactly if they are declared by the
entries one by one. -/
theorem read_eq_iff {source name list : Text} (hparts : parts? (Text.trim source) = some (name, list)) (line : Int)
    (parameters : List Parameter) :
    read source line = (⟨name, parameters⟩, []) ↔ (texts list).map parameter? = parameters.map some := by
  rw [read, hparts, texts, List.map_map]
  simp only [Prod.mk.injEq, mk.injEq, true_and]
  induction split list generalizing parameters with
  | nil => cases parameters <;> simp
  | cons entry entries ih =>
    rw [List.map_cons, List.map_cons, List.filterMap_cons, List.filterMap_cons, readEntry, Function.comp_apply]
    cases hread : parameter? entry.text with
    | none => cases parameters <;> simp
    | some parameter =>
      cases parameters with
      | nil => simp [Except.toOption]
      | cons first parameters => simpa [Except.toOption, and_assoc] using fun _ => ih parameters

section Written

variable {name : Text} {parameters : List WrittenParameter}

theorem parts?_written (hne : name ≠ []) (hname : ∀ c ∈ name, isWord c)
    (hparameters : ∀ written ∈ parameters, written.WellFormed) :
    parts? (Text.trim (written name parameters)) =
      some (name, Text.join "," (parameters.map WrittenParameter.text)) := by
  rw [written, trim_append hne hname]
  apply parts?_append hne hname
  apply Text.newline_not_mem_join (by decide)
  intro text htext
  obtain ⟨written, hwritten, rfl⟩ := List.mem_map.mp htext
  exact (hparameters written hwritten).newline_not_mem_text

/-- With closed brackets in each type, the parameters of a signature are split one by one. -/
theorem texts_written (hparameters : ∀ written ∈ parameters, written.WellFormed)
    (hclosed : ∀ written ∈ parameters, openAfter 0 written.parameter.type = 0) :
    texts (Text.join "," (parameters.map WrittenParameter.text)) =
      parameters.flatMap fun written => texts written.text := by
  rw [texts_join, List.flatMap_map]
  intro text htext
  obtain ⟨written, hwritten, rfl⟩ := List.mem_map.mp htext
  rw [(hparameters written hwritten).openAfter_text]
  exact hclosed written hwritten

/-- Without separators in the types, each parameter is one entry of the list. -/
theorem texts_of_unsplit (hparameters : ∀ written ∈ parameters, written.WellFormed)
    (hclosed : ∀ written ∈ parameters, openAfter 0 written.parameter.type = 0)
    (hunsplit : ∀ written ∈ parameters, Unsplit 0 written.parameter.type) :
    texts (Text.join "," (parameters.map WrittenParameter.text)) = parameters.map WrittenParameter.body := by
  have htexts : ∀ written ∈ parameters, texts written.text = [written.body] := fun written hwritten =>
    (hparameters written hwritten).texts_text (hunsplit written hwritten) (hclosed written hwritten)
  rw [texts_written hparameters hclosed, List.flatMap_congr htexts, ← List.map_eq_flatMap]

/-- If each parameter is one entry of the list, all of them are read back. -/
theorem read_of_bodies (hne : name ≠ []) (hname : ∀ c ∈ name, isWord c)
    (hparameters : ∀ written ∈ parameters, written.WellFormed)
    (hbodies : texts (Text.join "," (parameters.map WrittenParameter.text)) = parameters.map WrittenParameter.body)
    (line : Int) :
    read (written name parameters) line = (⟨name, parameters.map WrittenParameter.parameter⟩, []) := by
  rw [read_eq_iff (parts?_written hne hname hparameters), hbodies, List.map_map, List.map_map]
  exact List.map_congr_left fun written hwritten => (hparameters written hwritten).parameter?_body

/-- A signature that is written with well-formed parameters is read back, if all brackets of a type are closed at
its end and none of its commas stands outside of them. -/
theorem read_written (hne : name ≠ []) (hname : ∀ c ∈ name, isWord c)
    (hparameters : ∀ written ∈ parameters, written.WellFormed)
    (hclosed : ∀ written ∈ parameters, openAfter 0 written.parameter.type = 0)
    (hunsplit : ∀ written ∈ parameters, Unsplit 0 written.parameter.type) (line : Int) :
    read (written name parameters) line = (⟨name, parameters.map WrittenParameter.parameter⟩, []) := by
  apply read_of_bodies hne hname hparameters
  exact texts_of_unsplit hparameters hclosed hunsplit

end Written

/-- Parameters with commas inside the brackets of their types, and with blanks. -/
def chartParameters : List WrittenParameter :=
  [⟨⟨"data", "Record<string, number>", false⟩, [], [' '], [], []⟩,
    ⟨⟨"onPick", "(x: number, y: number) => void", true⟩, [' ', '\t'], [], [' '], [' ']⟩]

/-- The commas of the types and the blanks around the parameters are told apart from the separators. -/
theorem read_written_chart :
    written "Chart" chartParameters =
        "Chart(data :Record<string, number>, \tonPick?: (x: number, y: number) => void )".toList ∧
      read (written "Chart" chartParameters) 4 =
        (⟨"Chart", chartParameters.map WrittenParameter.parameter⟩, []) :=
  ⟨by decide +kernel, read_written (by decide) (List.all_eq_true.mp (by decide)) (by decide +kernel)
    (by decide +kernel) (by decide +kernel) 4⟩

end Signature

end ViewMarkup
