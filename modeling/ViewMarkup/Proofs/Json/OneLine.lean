import ViewMarkup.Json.Writer

namespace ViewMarkup

namespace Text

theorem newline_not_mem_ofNat (n : Nat) : '\n' ∉ ofNat n := by
  intro hmem
  have hdigit := Nat.isDigit_of_mem_toDigits (by omega) (by omega) hmem
  revert hdigit
  decide

theorem newline_not_mem_ofInt (n : Int) : '\n' ∉ ofInt n := by
  cases n with
  | ofNat n => exact newline_not_mem_ofNat n
  | negSucc n => exact List.not_mem_cons_of_ne_of_not_mem (by decide) (newline_not_mem_ofNat (n + 1))

theorem not_mem_toDigits {x : Char} (hdigit : ∀ d : Nat, x ≠ d.digitChar) (n : Nat) : x ∉ Nat.toDigits 16 n := by
  induction n using Nat.strongRecOn with
  | ind n ih =>
    have hdigit (d : Nat) : x ∉ [d.digitChar] := by simpa using hdigit d
    by_cases hlt : n < 16
    · rw [Nat.toDigits_of_lt_base hlt]
      exact hdigit n
    · rw [Nat.toDigits_of_base_le (by omega) (by omega), List.mem_append, not_or]
      exact ⟨ih (n / 16) (by omega), hdigit (n % 16)⟩

theorem not_mem_hex {x : Char} (hdigit : ∀ d : Nat, x ≠ d.digitChar) (width n : Nat) : x ∉ hex width n := by
  have hzero : x ≠ '0' := hdigit 0
  simp [hex, not_mem_toDigits hdigit, hzero]

end Text

namespace DecimalLayout

variable {layout : DecimalLayout} (hplus : '\n' ∉ layout.exponentPlus)

include hplus

theorem newline_not_mem_exponentText (exponent : Int) : '\n' ∉ layout.exponentText exponent := by
  simp only [exponentText]
  split <;> simp [hplus, Text.newline_not_mem_ofNat]

theorem newline_not_mem_magnitude (decimal : Decimal) : '\n' ∉ layout.magnitude decimal := by
  have hdigits := Text.newline_not_mem_ofNat decimal.digits
  have htake (count : Nat) : '\n' ∉ (Text.ofNat decimal.digits).take count :=
    fun hmem => hdigits (List.mem_of_mem_take hmem)
  have hdrop (count : Nat) : '\n' ∉ (Text.ofNat decimal.digits).drop count :=
    fun hmem => hdigits (List.mem_of_mem_drop hmem)
  have htail : '\n' ∉ (Text.ofNat decimal.digits).tail := fun hmem => hdigits (List.mem_of_mem_tail hmem)
  simp only [magnitude]
  repeat' split
  all_goals simp [hdigits, htake, hdrop, htail, newline_not_mem_exponentText hplus]

theorem newline_not_mem_write (hundefined : '\n' ∉ layout.undefined) (hinfinite : '\n' ∉ layout.infinite)
    (x : Binary64) : '\n' ∉ layout.write x := by
  cases x with
  | nan => exact hundefined
  | infinity negative => cases negative <;> simp [write, hinfinite]
  | finite negative significand exponent =>
    cases negative <;> simp [write, newline_not_mem_magnitude hplus]

end DecimalLayout

namespace Json

section Escapes

variable {x : Char} (hdigit : ∀ d : Nat, x ≠ d.digitChar) (hslash : x ≠ '\\') (hmark : x ≠ 'u')

include hdigit hslash hmark

theorem not_mem_unitEscape (n : Nat) : x ∉ unitEscape n := by
  simp [unitEscape, Text.not_mem_hex hdigit, hslash, hmark]

/-- Escapes have only their marks and hexadecimal digits. -/
theorem not_mem_unicodeEscape (c : Char) : x ∉ unicodeEscape c := by
  unfold unicodeEscape
  dsimp only
  split
  · exact not_mem_unitEscape hdigit hslash hmark _
  · rw [List.mem_append, not_or]
    exact ⟨not_mem_unitEscape hdigit hslash hmark _, not_mem_unitEscape hdigit hslash hmark _⟩

/-- A character is written as itself, or as an escape. -/
theorem not_mem_writeChar (hshort : x ∉ ['"', 'n', 'r', 't', 'b', 'f']) (style : JsonStyle) {c : Char} (hne : x ≠ c) :
    x ∉ writeChar style c := by
  have hescape := not_mem_unicodeEscape hdigit hslash hmark c
  simp only [List.mem_cons, List.not_mem_nil, or_false, not_or] at hshort
  unfold writeChar
  repeat' split
  all_goals simp [hescape, hne, hslash, hshort]

end Escapes

theorem newline_not_mem_writeChar (style : JsonStyle) (c : Char) : '\n' ∉ writeChar style c := by
  by_cases hfeed : c = '\n'
  · simp [writeChar, hfeed]
  · exact not_mem_writeChar (by simp) (by decide) (by decide) (by decide) style (Ne.symm hfeed)

theorem newline_not_mem_writeString (style : JsonStyle) (t : Text) : '\n' ∉ writeString style t := by
  simp [writeString, newline_not_mem_writeChar]

variable {style : JsonStyle}

theorem newline_not_mem_writeScalar (hnumber : ∀ x, '\n' ∉ style.number x) (value : Json) :
    '\n' ∉ writeScalar style value := by
  cases value with
  | bool value => cases value <;> simp [writeScalar]
  | int n => exact Text.newline_not_mem_ofInt n
  | float x => exact hnumber x
  | string t => exact newline_not_mem_writeString style t
  | null | array | object => simp [writeScalar]

mutual

/-- A value is written on one line if its numbers are. -/
theorem newline_not_mem_write (hnumber : ∀ x, '\n' ∉ style.number x) : (value : Json) → '\n' ∉ write style value
  | array (item :: items) => by
    simp [write, newline_not_mem_write hnumber item, newline_not_mem_writeItems hnumber items]
  | object ((name, value) :: members) => by
    simp [write, newline_not_mem_writeString, newline_not_mem_write hnumber value,
      newline_not_mem_writeMembers hnumber members]
  | array [] | object [] | null | bool _ | int _ | float _ | string _ =>
    newline_not_mem_writeScalar hnumber _

theorem newline_not_mem_writeItems (hnumber : ∀ x, '\n' ∉ style.number x) :
    (items : List Json) → '\n' ∉ writeItems style items
  | [] => List.not_mem_nil
  | item :: items => by
    simp [writeItems, newline_not_mem_write hnumber item, newline_not_mem_writeItems hnumber items]

theorem newline_not_mem_writeMembers (hnumber : ∀ x, '\n' ∉ style.number x) :
    (members : List (Text × Json)) → '\n' ∉ writeMembers style members
  | [] => List.not_mem_nil
  | (name, value) :: members => by
    simp [writeMembers, newline_not_mem_writeString, newline_not_mem_write hnumber value,
      newline_not_mem_writeMembers hnumber members]

end

theorem newline_not_mem_write_unicode (value : Json) : '\n' ∉ write .unicode value :=
  newline_not_mem_write (DecimalLayout.newline_not_mem_write (by decide) (by decide) (by decide)) value

end Json

end ViewMarkup
