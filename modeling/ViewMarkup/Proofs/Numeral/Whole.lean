import Mathlib.Algebra.Group.Nat.Defs
import Mathlib.Data.List.Basic
import Mathlib.Data.List.TakeWhile
import ViewMarkup.Property.Value

namespace ViewMarkup

theorem toNat_lt_of_isDigit {c : Char} (hdigit : c.isDigit) : c.toNat < 58 := by
  have hnine : c.val ≤ '9'.val := of_decide_eq_true (Bool.and_eq_true_iff.mp hdigit).2
  exact Nat.lt_of_le_of_lt (UInt32.le_iff_toNat_le.mp hnine) (by decide)

theorem decimalValue?_of_isDigit {c : Char} (hdigit : c.isDigit) :
    decimalValue? c = some (c.toNat - '0'.toNat) := by
  have hascii : c.toNat < 128 := Nat.lt_trans (toNat_lt_of_isDigit hdigit) (by decide)
  rw [decimalValue?, if_pos hascii, if_pos hdigit]

theorem isDecimal_of_isDigit {c : Char} (hdigit : c.isDigit) : isDecimal c := by
  rw [isDecimal, decimalValue?_of_isDigit hdigit]
  rfl

theorem digitsValue_eq_ofDigitChars {t : Text} (hdigits : ∀ c ∈ t, c.isDigit) :
    digitsValue t = Nat.ofDigitChars 10 t 0 := by
  apply List.foldl_ext
  intro n c hc
  rw [decimalValue?_of_isDigit (hdigits c hc)]
  rfl

namespace Text

theorem isDigit_of_mem_ofNat {n : Nat} {c : Char} (hc : c ∈ ofNat n) : c.isDigit :=
  Nat.isDigit_of_mem_toDigits (by decide) (by decide) hc

theorem ofNat_ne_nil (n : Nat) : ofNat n ≠ [] :=
  Nat.toDigits_ne_nil

theorem ofInt_eq (n : Int) : ofInt n = (if decide (n < 0) then ['-'] else []) ++ ofNat n.natAbs := by
  cases n with
  | ofNat n => rw [if_neg (by simp), List.nil_append, ofInt, Int.natAbs_ofNat']
  | negSucc n => rw [if_pos (by simp), ofInt, Int.natAbs_negSucc, List.singleton_append]

/-- The characters of a numeral, with the sign. -/
theorem of_mem_ofInt {n : Int} {c : Char} (hc : c ∈ ofInt n) : c = '-' ∨ c.isDigit := by
  cases n with
  | ofNat n => exact .inr (isDigit_of_mem_ofNat hc)
  | negSucc n => exact (List.mem_cons.mp hc).imp_right isDigit_of_mem_ofNat

/-- A numeral spells its number. -/
theorem digitsValue_ofNat (n : Nat) : digitsValue (ofNat n) = n := by
  rw [digitsValue_eq_ofDigitChars fun c hc => isDigit_of_mem_ofNat hc]
  exact Nat.ofDigitChars_toDigits (by decide) (by decide)

end Text

namespace NumberLiteral

/-- Digits behind a sign perhaps are a literal without point and exponent. -/
theorem ofText?_digits {digits : Text} (hne : digits ≠ []) (hdigits : ∀ c ∈ digits, c.isDigit) (negative : Bool) :
    ofText? ((if negative then ['-'] else []) ++ digits) = some ⟨negative, digitsValue digits, 0, true⟩ := by
  have hwhole : digits.takeWhile isDecimal = digits :=
    List.takeWhile_eq_self_iff.mpr fun c hc => isDecimal_of_isDigit (hdigits c hc)
  cases negative with
  | false =>
    have hunsigned (rest : Text) : digits ≠ '-' :: rest := by
      rintro rfl
      cases hdigits '-' List.mem_cons_self
    simp [ofText?, hwhole, hne, exponent?, Text.atLineEnd]
  | true => simp [ofText?, hwhole, hne, exponent?, Text.atLineEnd]

end NumberLiteral

theorem roundHalfEven_one (a : Nat) : roundHalfEven a 1 = a := by
  simp [roundHalfEven, Nat.mod_one]

namespace Binary64

theorem binaryOrder_one {n : Nat} (hn : n ≠ 0) : binaryOrder n 1 = n.log2 := by
  have hle : 2 ^ n.log2 ≤ n := Nat.log2_self_le hn
  have hone : Nat.log2 1 = 0 := by decide
  simp [binaryOrder, shiftRatio, hone, hle]

/-- A positive integer below `2 ^ 53` is shifted until its significand has 53 bits; nothing is rounded. -/
theorem ofRatio_of_lt {n : Nat} (hn : n ≠ 0) (hlt : n < 2 ^ 53) (negative : Bool) :
    ofRatio negative n 1 = .finite negative (n * 2 ^ (52 - n.log2)) (-(52 - n.log2 : Nat)) := by
  have hlog : n.log2 < 53 := (Nat.log2_lt hn).mpr hlt
  have hexponent : max (binaryOrder n 1 - 52) leastExponent = -((52 - n.log2 : Nat) : Int) := by
    rw [binaryOrder_one hn, leastExponent]
    omega
  have hbits : n * 2 ^ (52 - n.log2) < 2 ^ 53 := by
    calc n * 2 ^ (52 - n.log2) < 2 ^ (n.log2 + 1) * 2 ^ (52 - n.log2) :=
          Nat.mul_lt_mul_of_pos_right Nat.lt_log2_self (Nat.two_pow_pos _)
      _ = 2 ^ 53 := by
          rw [← Nat.pow_add]
          congr 1
          omega
  have hfinite : ¬ greatestExponent < -((52 - n.log2 : Nat) : Int) := by
    rw [greatestExponent]
    omega
  have hratio : shiftRatio n 1 (-(-((52 - n.log2 : Nat) : Int))) = (n * 2 ^ (52 - n.log2), 1) := by
    simp [shiftRatio]
  have hcarry : ¬ n * 2 ^ (52 - n.log2) = Nat.pow 2 53 := hbits.ne
  rw [ofRatio, if_neg hn, hexponent]
  dsimp only
  rw [hratio]
  dsimp only
  rw [roundHalfEven_one, if_neg hcarry]
  dsimp only
  rw [if_neg hfinite]

theorem toInt?_shifted (negative : Bool) (n shift : Nat) :
    toInt? (.finite negative (n * 2 ^ shift) (-shift)) = some (if negative then -(n : Int) else n) := by
  have hratio : shiftRatio (n * 2 ^ shift) 1 (-shift) = (n * 2 ^ shift, 2 ^ shift) := by simp [shiftRatio]
  rw [toInt?, hratio]
  dsimp only
  rw [Nat.mul_mod_left, if_pos rfl, Nat.mul_div_cancel n (Nat.two_pow_pos shift)]

/-- A double is equal to each integer of magnitude up to `2 ^ 53`. -/
theorem toInt?_ofDecimal {n : Nat} (hn : n ≤ 2 ^ 53) (negative : Bool) :
    (ofDecimal negative n 0).toInt? = some (if negative then -(n : Int) else n) := by
  by_cases hzero : n = 0
  · subst hzero
    cases negative <;> decide +kernel
  have hlength : (Text.ofNat n).length ≤ 16 := by
    rw [Text.ofNat, Nat.length_toDigits_le_iff (by decide) (by decide)]
    exact Nat.lt_of_le_of_lt hn (by decide)
  have hratio : ofDecimal negative n 0 = ofRatio negative n 1 := by
    rw [ofDecimal, if_neg (by omega), if_neg (by omega)]
    simp
  rw [hratio]
  obtain hlt | rfl := Nat.lt_or_eq_of_le hn
  · rw [ofRatio_of_lt hzero hlt, toInt?_shifted]
  · cases negative <;> decide +kernel

end Binary64

end ViewMarkup
