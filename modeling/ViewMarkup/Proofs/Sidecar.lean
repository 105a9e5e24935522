import Mathlib.Algebra.Order.BigOperators.Group.List
import Mathlib.Algebra.Order.Group.Nat
import ViewMarkup.Proofs.Document.Diagnostics
import ViewMarkup.Proofs.Json.Indented
import ViewMarkup.Proofs.Text.Lines
import ViewMarkup.Sidecar

namespace ViewMarkup

namespace Json

/-- The member of an object under a name. -/
def field? (name : Text) : Json → Option Json
  | object members => members.lookup name
  | _ => none

/-- The characters of a string. -/
def string? : Json → Option Text
  | string t => some t
  | _ => none

/-- An integer. -/
def int? : Json → Option Int
  | int n => some n
  | _ => none

/-- A truth value. -/
def bool? : Json → Option Bool
  | bool value => some value
  | _ => none

/-- The items of an array, each read alike. -/
def items? {α : Type} (read? : Json → Option α) : Json → Option (List α)
  | array items => items.mapM read?
  | _ => none

/-- Items that are read one by one are read together. -/
theorem items?_map {α : Type} {read? : Json → Option α} {write : α → Json} (hread : ∀ a, read? (write a) = some a)
    (items : List α) : items? read? (.array (items.map write)) = some items := by
  unfold items?
  induction items with
  | nil => rfl
  | cons item items ih => simp [hread, ih]

end Json

/-- Reads a position. -/
def Position.ofJson? (value : Json) : Option Position := do
  return ⟨← (← value.field? "line").int?, ← (← value.field? "character").int?⟩

/-- Reads a range. -/
def Range.ofJson? (value : Json) : Option Range := do
  return ⟨← Position.ofJson? (← value.field? "start"), ← Position.ofJson? (← value.field? "end")⟩

/-- Reads a diagnostic. -/
def Diagnostic.ofJson? (value : Json) : Option Diagnostic := do
  let code ← DiagnosticCode.ofName? (← (← value.field? "code").string?)
  let message ← (← value.field? "message").string?
  let range ← Range.ofJson? (← value.field? "range")
  let severity ← Severity.ofNumber? (← (← value.field? "severity").int?)
  return ⟨code, message, range, severity⟩

/-- Reads a parameter. -/
def Parameter.ofJson? (value : Json) : Option Parameter := do
  return ⟨← (← value.field? "name").string?, ← (← value.field? "type").string?, ← (← value.field? "optional").bool?⟩

/-- Reads a signature. -/
def Signature.ofJson? (value : Json) : Option Signature := do
  return ⟨← (← value.field? "name").string?, ← (← value.field? "parameters").items? Parameter.ofJson?⟩

/-- What a sidecar says of a document. -/
structure Sidecar where
  source : Text
  /-- There is no signature if it is null. -/
  signature? : Option Signature
  diagnostics : List Diagnostic
  imports : List Text
  deriving DecidableEq, Repr

/-- Reads a signature or null. -/
def Sidecar.signatureOfJson? : Json → Option (Option Signature)
  | .null => some none
  | value => (Signature.ofJson? value).map some

/-- Reads a sidecar. -/
def Sidecar.ofJson? (value : Json) : Option Sidecar := do
  let source ← (← value.field? "source").string?
  let signature? ← signatureOfJson? (← value.field? "component")
  let diagnostics ← (← value.field? "diagnostics").items? Diagnostic.ofJson?
  let imports ← (← value.field? "imports").items? Json.string?
  return ⟨source, signature?, diagnostics, imports⟩

section Decoding

theorem Range.ofJson?_toJson (range : Range) : Range.ofJson? range.toJson = some range := rfl

/-- Codes are told apart by their names, and severities by their numbers. -/
theorem Diagnostic.ofJson?_toJson (diagnostic : Diagnostic) :
    Diagnostic.ofJson? diagnostic.toJson = some diagnostic := by
  have hcode : DiagnosticCode.ofName? diagnostic.code.name = some diagnostic.code := by
    cases diagnostic.code <;> decide
  have hseverity : Severity.ofNumber? diagnostic.severity.number = some diagnostic.severity := by
    cases diagnostic.severity <;> decide
  have hfields : Diagnostic.ofJson? diagnostic.toJson =
      (DiagnosticCode.ofName? diagnostic.code.name).bind fun code =>
        (Range.ofJson? diagnostic.range.toJson).bind fun range =>
          (Severity.ofNumber? diagnostic.severity.number).bind fun severity =>
            some ⟨code, diagnostic.message, range, severity⟩ := rfl
  rw [hfields, hcode, diagnostic.range.ofJson?_toJson, hseverity]
  rfl

theorem Parameter.ofJson?_toJson (parameter : Parameter) : Parameter.ofJson? parameter.toJson = some parameter := rfl

theorem Signature.ofJson?_toJson (signature : Signature) : Signature.ofJson? signature.toJson = some signature := by
  have hfields : Signature.ofJson? signature.toJson =
      (Json.items? Parameter.ofJson? (.array (signature.parameters.map Parameter.toJson))).bind fun parameters =>
        some ⟨signature.name, parameters⟩ := rfl
  rw [hfields, Json.items?_map Parameter.ofJson?_toJson]
  rfl

theorem Sidecar.signatureOfJson?_signatureJson (document : Document) :
    signatureOfJson? document.signatureJson = some document.signature? := by
  unfold Document.signatureJson
  cases document.signature? with
  | none => rfl
  | some signature => exact congrArg (Option.map some) signature.ofJson?_toJson

/-- A sidecar tells everything that it is made from. -/
theorem Sidecar.ofJson?_ofDocument (source : Text) (document : Document) :
    Sidecar.ofJson? (Sidecar.ofDocument source document) =
      some ⟨source, document.signature?, document.diagnostics, document.imports⟩ := by
  have hfields : Sidecar.ofJson? (Sidecar.ofDocument source document) =
      (signatureOfJson? document.signatureJson).bind fun signature? =>
        (Json.items? Diagnostic.ofJson? (.array (document.diagnostics.map Diagnostic.toJson))).bind fun diagnostics =>
          (Json.items? Json.string? (.array (document.imports.map .string))).bind fun imports =>
            some ⟨source, signature?, diagnostics, imports⟩ := rfl
  have hstring (t : Text) : Json.string? (.string t) = some t := rfl
  rw [hfields, signatureOfJson?_signatureJson, Json.items?_map Diagnostic.ofJson?_toJson, Json.items?_map hstring]
  rfl

end Decoding

section Bounds

namespace Text

theorem length_foldPairs_le (t : Text) : (foldPairs t).length ≤ t.length := by
  fun_induction foldPairs t <;> grind

/-- The pieces of a text and the separators between them are as long as the text. -/
theorem sum_length_split (c : Char) (t : Text) :
    ((split c t).map List.length).sum + (split c t).length = t.length + 1 := by
  induction t with
  | nil => rfl
  | cons d rest ih =>
    unfold split
    split
    · simp only [List.map_cons, List.sum_cons, List.length_cons, List.length_nil]
      omega
    · split
      · rename_i hnil
        exact absurd hnil (split_ne_nil c rest)
      · rename_i piece pieces hcons
        rw [hcons] at ih
        simp only [List.map_cons, List.sum_cons, List.length_cons] at ih ⊢
        omega

/-- A line is no longer than the text, and no further down than the text is long. -/
theorem bounds_of_getElem?_lines {t raw : Text} {l : Nat} (hget : (lines t)[l]? = some raw) :
    l ≤ t.length ∧ raw.length ≤ t.length := by
  have hsum := sum_length_split '\n' (foldPairs t)
  have hfold := length_foldPairs_le t
  rw [lines, List.getElem?_map, Option.map_eq_some_iff] at hget
  obtain ⟨piece, hpiece, rfl⟩ := hget
  have hindex : l < (split '\n' (foldPairs t)).length := (List.getElem?_eq_some_iff.mp hpiece).1
  have hlength : piece.length ≤ ((split '\n' (foldPairs t)).map List.length).sum :=
    List.le_sum_of_mem (List.mem_map_of_mem (List.mem_of_getElem? hpiece))
  have hdrop : (dropReturns piece).length ≤ piece.length := (List.rdropWhile_prefix (· == '\r') piece).length_le
  omega

end Text

/-- A fault is on a line of the text, in its columns. -/
theorem Document.range_bounds {t : Text} {fault : Diagnostic} (hfault : fault ∈ (ofText t).diagnostics) :
    ∃ l start stop : Nat, fault.range = Range.onLine l start stop ∧ l ≤ t.length ∧ start ≤ t.length ∧
      stop ≤ t.length := by
  obtain ⟨first, body, hlines⟩ := exists_lines t
  by_cases hfirst : Text.trim first = []
  · rw [ofText_of_blank hlines hfirst] at hfault
    obtain rfl := List.mem_singleton.mp hfault
    exact ⟨0, 0, 0, rfl, Nat.zero_le _, Nat.zero_le _, Nat.zero_le _⟩
  · rw [ofText_of_lines hlines hfirst] at hfault
    obtain ⟨l, raw, hget, start, stop, hrange, hle, hstop, _⟩ := (draft_surveyed hfirst body).points fault hfault
    obtain ⟨hline, hraw⟩ := Text.bounds_of_getElem?_lines (hlines ▸ hget)
    exact ⟨l, start, stop, hrange, hline, by omega, by omega⟩

end Bounds

namespace Json

/-- A value that can be written and read back; nothing is asked of its strings. -/
abbrev IsLiteral (value : Json) : Prop :=
  Literal (fun _ => True) value

theorem isLiteral_string (t : Text) : IsLiteral (.string t) :=
  .string trivial

theorem isLiteral_object {members : List (Text × Json)} (hnames : (members.map Prod.fst).Nodup)
    (hmembers : ∀ member ∈ members, IsLiteral member.2) : IsLiteral (.object members) :=
  .object hnames (fun _ _ => trivial) hmembers

theorem isLiteral_map {α : Type} {items : List α} {write : α → Json} (hitems : ∀ item ∈ items, IsLiteral (write item)) :
    IsLiteral (.array (items.map write)) :=
  .array (List.forall_mem_map.mpr hitems)

/-- Integers up to one that can be read can be read. -/
theorem isLiteral_int {limit n : Nat} (hlimit : (Text.ofNat limit).length ≤ integerDigitLimit) (hn : n ≤ limit) :
    IsLiteral (.int n) := by
  have hpositive : 0 < integerDigitLimit := by decide
  rw [Text.ofNat, Nat.length_toDigits_le_iff (by decide) hpositive] at hlimit
  refine .int ?_
  rw [Int.natAbs_natCast, Text.ofNat, Nat.length_toDigits_le_iff (by decide) hpositive]
  exact Nat.lt_of_le_of_lt hn hlimit

end Json

section Literals

open Json

theorem Parameter.isLiteral_toJson (parameter : Parameter) : parameter.toJson.IsLiteral := by
  refine isLiteral_object (by decide : ["name".toList, "type".toList, "optional".toList].Nodup) ?_
  simp only [List.forall_mem_cons]
  exact ⟨isLiteral_string _, isLiteral_string _, .bool _, List.forall_mem_nil _⟩

theorem Signature.isLiteral_toJson (signature : Signature) : signature.toJson.IsLiteral := by
  refine isLiteral_object (by decide : ["name".toList, "parameters".toList].Nodup) ?_
  simp only [List.forall_mem_cons]
  exact ⟨isLiteral_string _, isLiteral_map fun parameter _ => parameter.isLiteral_toJson, List.forall_mem_nil _⟩

theorem Document.isLiteral_signatureJson (document : Document) : document.signatureJson.IsLiteral := by
  unfold signatureJson
  cases document.signature? with
  | none => exact .null
  | some signature => exact signature.isLiteral_toJson

variable {limit : Nat} (hlimit : (Text.ofNat limit).length ≤ integerDigitLimit)

include hlimit

theorem Position.isLiteral_toJson {line character : Nat} (hline : line ≤ limit) (hcharacter : character ≤ limit) :
    IsLiteral (Position.toJson ⟨line, character⟩) := by
  refine isLiteral_object (by decide : ["line".toList, "character".toList].Nodup) ?_
  simp only [List.forall_mem_cons]
  exact ⟨isLiteral_int hlimit hline, isLiteral_int hlimit hcharacter, List.forall_mem_nil _⟩

theorem Diagnostic.isLiteral_toJson {diagnostic : Diagnostic} {line start stop : Nat}
    (hrange : diagnostic.range = Range.onLine line start stop) (hline : line ≤ limit) (hstart : start ≤ limit)
    (hstop : stop ≤ limit) : diagnostic.toJson.IsLiteral := by
  have hseverity : IsLiteral (.int diagnostic.severity.number) := by
    cases diagnostic.severity <;> exact .int (by decide)
  have hplaces : diagnostic.range.toJson.IsLiteral := by
    rw [hrange]
    refine isLiteral_object (by decide : ["start".toList, "end".toList].Nodup) ?_
    simp only [List.forall_mem_cons]
    exact ⟨Position.isLiteral_toJson hlimit hline hstart, Position.isLiteral_toJson hlimit hline hstop,
      List.forall_mem_nil _⟩
  refine isLiteral_object (by decide : ["message".toList, "severity".toList, "range".toList, "code".toList].Nodup) ?_
  simp only [List.forall_mem_cons]
  exact ⟨isLiteral_string _, hseverity, hplaces, isLiteral_string _, List.forall_mem_nil _⟩

end Literals

namespace Sidecar

theorem isLiteral_ofDocument {t : Text} (hlength : (Text.ofNat t.length).length ≤ integerDigitLimit) (source : Text) :
    (ofDocument source (Document.ofText t)).IsLiteral := by
  have hdiagnostics : ∀ fault ∈ (Document.ofText t).diagnostics, fault.toJson.IsLiteral := by
    intro fault hfault
    obtain ⟨line, start, stop, hrange, hline, hstart, hstop⟩ := Document.range_bounds hfault
    exact Diagnostic.isLiteral_toJson hlength hrange hline hstart hstop
  refine Json.isLiteral_object
    (by decide : ["source".toList, "component".toList, "diagnostics".toList, "imports".toList].Nodup) ?_
  simp only [List.forall_mem_cons]
  exact ⟨Json.isLiteral_string source, (Document.ofText t).isLiteral_signatureJson, Json.isLiteral_map hdiagnostics,
    Json.isLiteral_map fun imported _ => Json.isLiteral_string imported, List.forall_mem_nil _⟩

/-- A sidecar is ASCII, and it reads back as the JSON from which it was written: the source, the signature or null, the
diagnostics and the imports, in order. Only an integer of more digits than JSON takes could keep it from being read,
and no place in a text has more digits than its length, so that would be a text of at least `10 ^ 4300` characters. -/
theorem write_reads_back (source t : Text) :
    (write source (Document.ofText t)).IsAscii ∧
      ((Text.ofNat t.length).length ≤ integerDigitLimit →
        ∃ value, Json.read (write source (Document.ofText t)) = .ok value ∧
          value = ofDocument source (Document.ofText t) ∧
          Sidecar.ofJson? value = some ⟨source, (Document.ofText t).signature?, (Document.ofText t).diagnostics,
            (Document.ofText t).imports⟩) := by
  refine ⟨Json.isAscii_writeIndented 0 _, fun hlength => ⟨_, ?_, rfl, ofJson?_ofDocument source _⟩⟩
  exact Json.read_writeIndented .ascii 0 (isLiteral_ofDocument hlength source)

/-- A page with a fault that quotes a character beyond the sixteen-bit range, and with an import. -/
def faultyPage : Text :=
  "Page(title?:string, 😀)\n:js\n  import a from 'é';"

theorem write_reads_back_faulty :
    (write "naïve/😀.lnr" (Document.ofText faultyPage)).IsAscii ∧
      ∃ value, Json.read (write "naïve/😀.lnr" (Document.ofText faultyPage)) = .ok value ∧
        Sidecar.ofJson? value = some ⟨"naïve/😀.lnr", some ⟨"Page", [⟨"title", "string", true⟩]⟩,
          [.error .invalidPropDefinition "Invalid prop definition: 😀" 0 20 21], ["import a from 'é';"]⟩ := by
  obtain ⟨hascii, hread⟩ := write_reads_back "naïve/😀.lnr" faultyPage
  obtain ⟨value, hvalue, _, hsidecar⟩ := hread (by decide +kernel)
  have hparts : (Document.ofText faultyPage).signature? = some ⟨"Page", [⟨"title", "string", true⟩]⟩ ∧
      (Document.ofText faultyPage).diagnostics =
        [.error .invalidPropDefinition "Invalid prop definition: 😀" 0 20 21] ∧
      (Document.ofText faultyPage).imports = ["import a from 'é';".toList] := by
    decide +kernel
  obtain ⟨hsignature, hdiagnostics, himports⟩ := hparts
  rw [hsignature, hdiagnostics, himports] at hsidecar
  exact ⟨hascii, value, hvalue, hsidecar⟩

end Sidecar

end ViewMarkup
