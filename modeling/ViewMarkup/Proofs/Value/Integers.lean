import ViewMarkup.Proofs.Numeral.Rounding
import ViewMarkup.Proofs.Property.Spelling
import ViewMarkup.Proofs.Value.Declared

namespace ViewMarkup

namespace Value

variable {digits : Text}

/-- A declaration reads the integer itself. -/
theorem declared_digits (hwhole : Json.Whole digits) (hlimit : digits.length ≤ integerDigitLimit) (negative : Bool) :
    declared (Json.sign negative ++ digits) =
      .ok (.literal (.int (if negative then -digitsValue digits else digitsValue digits))) := by
  have hnumber : Json.Number (Json.sign negative ++ digits) _ := .int hwhole hlimit
  have hquote : '\'' ∉ Json.sign negative ++ digits := by
    intro hmem
    obtain hsign | hdigit := List.mem_append.mp hmem
    · cases negative <;> simp [Json.sign] at hsign
    · cases hwhole.isDigit _ hdigit
  exact declared_of_not_mem (Json.Spelled.number hnumber).document hquote

/-- A property reads the integer with the rounded bits. -/
theorem property_of_lt_overflow (hdigits : Json.Digits digits) (hlt : digitsValue digits < Binary64.overflow)
    (negative : Bool) :
    ∃ n, Binary64.IsNearest (digitsValue digits) n ∧
      property (Json.sign negative ++ digits) = .literal (.int (if negative then -(n : Int) else n)) := by
  refine ⟨_, Binary64.isNearest_significand hlt, ?_⟩
  rw [Json.sign, property_digits hdigits.ne_nil hdigits.isDigit, NumberLiteral.toJson, NumberLiteral.toBinary64,
    Binary64.toInt?_ofDecimal_of_lt hlt]

/-- A property reads infinity where rounding leads beyond the greatest finite number. -/
theorem property_of_overflow_le (hdigits : Json.Digits digits) (hle : Binary64.overflow ≤ digitsValue digits)
    (negative : Bool) :
    property (Json.sign negative ++ digits) = .literal (.float (.infinity negative)) := by
  rw [Json.sign, property_digits hdigits.ne_nil hdigits.isDigit, NumberLiteral.toJson, NumberLiteral.toBinary64,
    Binary64.ofDecimal_of_overflow_le hle]
  rfl

/-- A declaration reads the integer that a numeral spells. A property reads the integer that the nearest double is
equal to, or infinity if that is the nearest double, and so it reads the integer of the numeral exactly if a double is
equal to it. -/
theorem property_integer_iff_exact (negative : Bool) (digits : Text) (hwhole : Json.Whole digits)
    (hlimit : digits.length ≤ integerDigitLimit) :
    declared (Json.sign negative ++ digits) =
        .ok (.literal (.int (if negative then -digitsValue digits else digitsValue digits))) ∧
      (property (Json.sign negative ++ digits) =
          .literal (.int (if negative then -digitsValue digits else digitsValue digits)) ↔
        Binary64.Exact (digitsValue digits)) ∧
      (digitsValue digits < Binary64.overflow →
        ∃ n, Binary64.IsNearest (digitsValue digits) n ∧
          property (Json.sign negative ++ digits) = .literal (.int (if negative then -(n : Int) else n))) ∧
      (Binary64.overflow ≤ digitsValue digits →
        property (Json.sign negative ++ digits) = .literal (.float (.infinity negative))) := by
  have hdigits : Json.Digits digits := hwhole.toDigits
  refine ⟨declared_digits hwhole hlimit negative, ⟨?_, ?_⟩, fun hlt => property_of_lt_overflow hdigits hlt negative,
    fun hle => property_of_overflow_le hdigits hle negative⟩
  · intro hproperty
    obtain hlt | hle := Nat.lt_or_ge (digitsValue digits) Binary64.overflow
    · obtain ⟨n, hnearest, hrounded⟩ := property_of_lt_overflow hdigits hlt negative
      rw [hrounded, literal.injEq, Json.int.injEq] at hproperty
      have hn : n = digitsValue digits := by
        split at hproperty <;> omega
      exact hn ▸ hnearest.isExact
    · rw [property_of_overflow_le hdigits hle] at hproperty
      cases hproperty
  · intro hexact
    obtain ⟨n, hnearest, hrounded⟩ := property_of_lt_overflow hdigits hexact.lt_overflow negative
    rw [hrounded, hnearest.eq_of_exact hexact]

theorem property_integer_iff_exact_negative :
    Json.Whole "9007199254740993".toList ∧
      declared "-9007199254740993".toList = .ok (.literal (.int (-9007199254740993))) ∧
      (property "-9007199254740993".toList = .literal (.int (-9007199254740993)) ↔ Binary64.Exact 9007199254740993) ∧
      ∃ n, Binary64.IsNearest 9007199254740993 n ∧
        property "-9007199254740993".toList = .literal (.int (-(n : Int))) := by
  have hwhole : Json.Whole "9007199254740993".toList := ⟨⟨by decide, List.all_eq_true.mp (by decide)⟩, by decide⟩
  have hreadings := property_integer_iff_exact true "9007199254740993".toList hwhole (by decide)
  exact ⟨hwhole, hreadings.1, hreadings.2.1, hreadings.2.2.1 (by decide +kernel)⟩

/-- No double is equal to `2 ^ 53 + 1`. -/
theorem property_rounds_integer :
    property "9007199254740993".toList = .literal (.int 9007199254740992) ∧
      declared "9007199254740993".toList = .ok (.literal (.int 9007199254740993)) :=
  ⟨rfl, rfl⟩

end Value

end ViewMarkup
