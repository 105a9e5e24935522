import ViewMarkup.Line.Component
import ViewMarkup.Proofs.Json.OneLine
import ViewMarkup.Proofs.Numeral.Whole
import ViewMarkup.Proofs.Property.Sealed
import ViewMarkup.Proofs.Text.Words
import ViewMarkup.Proofs.Value.Braced

namespace ViewMarkup

/-- The ways of writing a value: text in double quotes, a boolean, an integer that a double is equal to, and an
expression in braces. -/
inductive Value.Spelled : Value → Text → Prop
  | string {t : Text} (hquote : '"' ∉ t) (hline : '\n' ∉ t) :
    Spelled (.literal (.string t)) ('"' :: (t ++ ['"']))
  | bool (value : Bool) : Spelled (.literal (.bool value)) (if value then "true" else "false")
  | int {n : Int} (hn : n.natAbs ≤ 2 ^ 53) : Spelled (.literal (.int n)) (Text.ofInt n)
  | expression {t : Text} (hne : t ≠ []) (htrim : Text.trim t = t) (hline : '\n' ∉ t)
    (hopen : '\x7b' ∉ t) (hclose : '\x7d' ∉ t) (hquotes : Text.QuotesClosed t) :
    Spelled (.expression t) ('\x7b' :: (t ++ ['\x7d']))

namespace Text

theorem isBlank_eq_false_of_isPlain {c : Char} (hplain : isPlain c) : isBlank c = false := by
  simp only [isPlain, Bool.not_eq_true', Bool.or_eq_false_iff] at hplain
  exact hplain.1

theorem trim_of_plain {t : Text} (hplain : ∀ c ∈ t, isPlain c) : trim t = t := by
  rw [trim_eq_self_iff]
  constructor
  · exact fun c hc => isBlank_eq_false_of_isPlain (hplain c (List.mem_of_mem_head? hc))
  · exact fun c hc => isBlank_eq_false_of_isPlain (hplain c (List.mem_of_getLast? hc))

/-- Nothing is trimmed inside of quotes or braces. -/
theorem trim_enclosed {first last : Char} (hfirst : isBlank first = false) (hlast : isBlank last = false) (t : Text) :
    trim (first :: (t ++ [last])) = first :: (t ++ [last]) := by
  rw [trim_eq_self_iff, List.head?_cons, ← List.cons_append, List.getLast?_concat]
  constructor
  · rintro c ⟨⟩
    exact hfirst
  · rintro c ⟨⟩
    exact hlast

theorem ofInt_ne_nil (n : Int) : ofInt n ≠ [] := by
  cases n with
  | ofNat n => exact ofNat_ne_nil n
  | negSucc n => exact List.cons_ne_nil _ _

theorem isPlain_of_isDigit {c : Char} (hdigit : c.isDigit) : isPlain c := by
  have hall : ∀ code < 58, (Char.ofNat code).isDigit → isPlain (Char.ofNat code) := by decide +kernel
  have hplain := hall c.toNat (toNat_lt_of_isDigit hdigit)
  rw [Char.ofNat_toNat] at hplain
  exact hplain hdigit

theorem isPlain_of_mem_ofInt {n : Int} {c : Char} (hc : c ∈ ofInt n) : isPlain c := by
  obtain rfl | hdigit := of_mem_ofInt hc
  · rfl
  · exact isPlain_of_isDigit hdigit

end Text

/-- A text without braces is no expression. -/
theorem braced?_of_plain {t : Text} (hplain : ∀ c ∈ t, Text.isPlain c) : braced? t = none := by
  cases t with
  | nil => rfl
  | cons c t =>
    have hopen : c ≠ '\x7b' := by
      rintro rfl
      cases hplain _ List.mem_cons_self
    simp [braced?, spanAt?, hopen]

theorem unquoted?_of_plain {t : Text} (hplain : ∀ c ∈ t, Text.isPlain c) : unquoted? t = none := by
  cases t with
  | nil => rfl
  | cons c t =>
    rw [unquoted?, if_neg]
    rintro ⟨rfl | rfl, _⟩ <;> cases hplain _ List.mem_cons_self

/-- Digits behind a sign perhaps are read as a number. -/
theorem Value.property_digits {digits : Text} (hne : digits ≠ []) (hdigits : ∀ c ∈ digits, c.isDigit)
    (negative : Bool) :
    Value.property ((if negative then ['-'] else []) ++ digits) =
      .literal (NumberLiteral.toJson ⟨negative, digitsValue digits, 0, true⟩) := by
  have hchar {c : Char} (hc : c ∈ (if negative then ['-'] else []) ++ digits) : c = '-' ∨ c.isDigit := by
    obtain hsign | hdigit := List.mem_append.mp hc
    · cases negative
      · cases hsign
      · exact .inl (List.mem_singleton.mp hsign)
    · exact .inr (hdigits c hdigit)
  have hplain : ∀ c ∈ (if negative then ['-'] else []) ++ digits, Text.isPlain c := by
    intro c hc
    obtain rfl | hdigit := hchar hc
    · rfl
    · exact Text.isPlain_of_isDigit hdigit
  have hletter {t : Text} {c : Char} (hc : c ∈ t) (hsign : c ≠ '-') (hdigit : c.isDigit = false) :
      (if negative then ['-'] else []) ++ digits ≠ t := by
    rintro rfl
    obtain rfl | hdigit' := hchar hc
    · exact hsign rfl
    · rw [hdigit] at hdigit'
      cases hdigit'
  have htrue := hletter (t := "true".toList) (c := 't') (by decide) (by decide) (by decide)
  have hfalse := hletter (t := "false".toList) (c := 'f') (by decide) (by decide) (by decide)
  rw [Value.property, braced?_of_plain hplain, unquoted?_of_plain hplain]
  dsimp only
  rw [if_neg htrue, if_neg hfalse, NumberLiteral.ofText?_digits hne hdigits]

theorem Value.property_ofInt {n : Int} (hn : n.natAbs ≤ 2 ^ 53) :
    Value.property (Text.ofInt n) = .literal (.int n) := by
  have hvalue : (if decide (n < 0) then -(n.natAbs : Int) else n.natAbs) = n := by
    simp only [decide_eq_true_eq]
    split <;> omega
  rw [Text.ofInt_eq, Value.property_digits (Text.ofNat_ne_nil _) fun _ => Text.isDigit_of_mem_ofNat,
    Text.digitsValue_ofNat, NumberLiteral.toJson, NumberLiteral.toBinary64, Binary64.toInt?_ofDecimal hn, hvalue]

namespace Value.Spelled

variable {value : Value} {spelling : Text}

theorem isSealed (hspelled : Spelled value spelling) : Text.Sealed spelling := by
  cases hspelled with
  | string hquote hline => exact Text.sealed_quoted hquote
  | bool value => exact Text.sealed_of_plain (List.all_eq_true.mp (by cases value <;> decide))
  | int hn => exact Text.sealed_of_plain fun c hc => Text.isPlain_of_mem_ofInt hc
  | expression hne htrim hline hopen hclose hquotes => exact Text.sealed_braced hopen hclose hquotes

theorem newline_not_mem (hspelled : Spelled value spelling) : '\n' ∉ spelling := by
  cases hspelled with
  | string hquote hline => simpa using hline
  | bool value => cases value <;> decide
  | int hn => exact Text.newline_not_mem_ofInt _
  | expression hne htrim hline hopen hclose hquotes => simpa using hline

theorem property_eq (hspelled : Spelled value spelling) : Value.property spelling = value := by
  cases hspelled with
  | string hquote hline => simp [Value.property, braced?, spanAt?, unquoted?]
  | bool value => cases value <;> rfl
  | int hn => exact Value.property_ofInt hn
  | expression hne htrim hline hopen hclose hquotes => rw [Value.property, braced?_eq_some hne hopen hclose, htrim]

/-- No blank stands at an end of a spelling. -/
theorem trim_eq (hspelled : Spelled value spelling) : Text.trim spelling = spelling := by
  cases hspelled with
  | string hquote hline => exact Text.trim_enclosed rfl rfl _
  | bool value => exact Text.trim_of_plain (List.all_eq_true.mp (by cases value <;> decide))
  | int hn => exact Text.trim_of_plain fun c hc => Text.isPlain_of_mem_ofInt hc
  | expression hne htrim hline hopen hclose hquotes => exact Text.trim_enclosed rfl rfl _

theorem ne_nil (hspelled : Spelled value spelling) : spelling ≠ [] := by
  cases hspelled with
  | string hquote hline => exact List.cons_ne_nil _ _
  | bool value => cases value <;> decide
  | int hn => exact Text.ofInt_ne_nil _
  | expression hne htrim hline hopen hclose hquotes => exact List.cons_ne_nil _ _

end Value.Spelled

/-- A property as it is written, with the blanks in front of it. -/
structure WrittenProperty where
  gap : Text
  key : Text
  value : Value
  spelling : Text

namespace WrittenProperty

/-- The property without the blanks. -/
def body (written : WrittenProperty) : Text :=
  written.key ++ '=' :: written.spelling

def text (written : WrittenProperty) : Text :=
  written.gap ++ written.body

/-- The property as a token. -/
def spaced (written : WrittenProperty) : SpacedToken :=
  ⟨written.gap, written.body⟩

def field (written : WrittenProperty) : Text × Value :=
  (written.key, written.value)

/-- The value is spelled, nothing in the key is taken for something else, and blanks set the property apart. -/
structure WellFormed (written : WrittenProperty) : Prop where
  gap_ne_nil : written.gap ≠ []
  gap_isGap : Text.IsGap written.gap
  key_ne_nil : written.key ≠ []
  key_plain : ∀ c ∈ written.key, Text.isPlain c
  key_equals : '=' ∉ written.key
  spelled : written.value.Spelled written.spelling

namespace WellFormed

variable {written : WrittenProperty}

theorem sealed_body (hwritten : written.WellFormed) : Text.Sealed written.body := by
  have hkey := Text.sealed_of_plain hwritten.key_plain
  have hsign : Text.Sealed ['='] := Text.sealed_of_plain (List.all_eq_true.mp (by decide))
  exact hkey.append (hsign.append hwritten.spelled.isSealed)

theorem body_ne_nil (hwritten : written.WellFormed) : written.body ≠ [] :=
  List.append_ne_nil_of_left_ne_nil hwritten.key_ne_nil _

theorem isBlank_head_body (hwritten : written.WellFormed) (rest : Text) :
    ∀ c ∈ (written.body ++ rest).head?, isBlank c = false := by
  intro c hc
  rw [body, List.append_assoc, List.head?_append_of_ne_nil _ hwritten.key_ne_nil] at hc
  exact Text.isBlank_eq_false_of_isPlain (hwritten.key_plain c (List.mem_of_mem_head? hc))

theorem newline_not_mem_text (hwritten : written.WellFormed) : '\n' ∉ written.text := by
  have hgap : '\n' ∉ written.gap := fun hmem => (hwritten.gap_isGap _ hmem).2 rfl
  have hkey : '\n' ∉ written.key := fun hmem => absurd (hwritten.key_plain _ hmem) (by decide)
  have hspelling := hwritten.spelled.newline_not_mem
  simp [text, body, hgap, hkey, hspelling]

/-- A property is read back from its token. -/
theorem property?_body (hwritten : written.WellFormed) (start : Int) :
    PropertyToken.property? ⟨written.body, start⟩ = some written.field := by
  have hcut : Text.cut '=' written.body = (written.key, some written.spelling) :=
    Text.cut_append hwritten.key_equals _
  have hkey : Text.trim written.key = written.key := Text.trim_of_plain hwritten.key_plain
  simp only [PropertyToken.property?, hcut, hkey, hwritten.spelled.trim_eq, hwritten.spelled.property_eq]
  rw [if_neg (not_or.mpr ⟨hwritten.key_ne_nil, hwritten.spelled.ne_nil⟩)]
  rfl

end WellFormed

variable {properties : List WrittenProperty}

/-- Behind a token that has begun, the properties are tokens one by one. -/
theorem texts_scan (hproperties : ∀ written ∈ properties, written.WellFormed) (column : Int)
    (token : PropertyToken) :
    (PropertyToken.scan column (some token) Shelter.none (properties.flatMap text)).map PropertyToken.text =
      token.text.reverse :: properties.map body := by
  have hflat : properties.flatMap text = (properties.map spaced).flatMap SpacedToken.written ++ [] := by
    rw [List.append_nil, List.flatMap_map]
    rfl
  have hgaps : ∀ token ∈ properties.map spaced, token.gap ≠ [] ∧ ∀ c ∈ token.gap, isBlank c :=
    List.forall_mem_map.mpr fun written hmem =>
      ⟨(hproperties written hmem).gap_ne_nil, fun c hc => ((hproperties written hmem).gap_isGap c hc).1⟩
  have hsealed : ∀ token ∈ properties.map spaced, token.text ≠ [] ∧ Text.Sealed token.text :=
    List.forall_mem_map.mpr fun written hmem =>
      ⟨(hproperties written hmem).body_ne_nil, (hproperties written hmem).sealed_body⟩
  rw [hflat, SpacedToken.scan_spaced hgaps hsealed (by simp), List.map_cons, SpacedToken.map_text_place,
    List.map_map]
  rfl

end WrittenProperty

end ViewMarkup
