import Mathlib.Data.Nat.Dist
import ViewMarkup.Proofs.Numeral.Whole

namespace ViewMarkup

theorem roundHalfEven_cases (a d : Nat) :
    (roundHalfEven a d = a / d ∧ 2 * (a % d) ≤ d ∧ (2 * (a % d) = d → a / d % 2 = 0)) ∨
      (roundHalfEven a d = a / d + 1 ∧ d ≤ 2 * (a % d) ∧ (2 * (a % d) = d → a / d % 2 = 1)) := by
  rw [roundHalfEven]
  split
  · left
    omega
  · right
    omega

/-- A multiple of `d` is one of two neighbours or lies beyond them. -/
theorem mul_cases (k q d : Nat) :
    k = q ∨ k = q + 1 ∨ (k < q ∧ k * d + d ≤ q * d) ∨ (q + 1 < k ∧ q * d + 2 * d ≤ k * d) := by
  obtain hlt | hge := Nat.lt_or_ge k q
  · have hbelow : (k + 1) * d ≤ q * d := Nat.mul_le_mul_right d hlt
    rw [Nat.add_mul] at hbelow
    omega
  obtain hgt | hle := Nat.lt_or_ge (q + 1) k
  · have habove : (q + 2) * d ≤ k * d := Nat.mul_le_mul_right d hgt
    rw [Nat.add_mul] at habove
    omega
  · omega

/-- No multiple of `d` is nearer to `a` than the rounded one, and if another one is as near then the rounded one is
even. -/
theorem roundHalfEven_nearest {a d : Nat} (hd : 0 < d) (k : Nat) :
    Nat.dist a (roundHalfEven a d * d) ≤ Nat.dist a (k * d) ∧
      (k ≠ roundHalfEven a d → Nat.dist a (roundHalfEven a d * d) = Nat.dist a (k * d) →
        roundHalfEven a d % 2 = 0) := by
  have hdivision : a / d * d + a % d = a := Nat.div_add_mod' a d
  have hremainder : a % d < d := Nat.mod_lt a hd
  have hnext : (a / d + 1) * d = a / d * d + d := Nat.succ_mul _ _
  have hside := mul_cases k (a / d) d
  simp only [Nat.dist]
  obtain ⟨heq, hhalf, htie⟩ | ⟨heq, hhalf, htie⟩ := roundHalfEven_cases a d
  · rw [heq]
    obtain rfl | rfl | ⟨-, hbelow⟩ | ⟨-, habove⟩ := hside <;> omega
  · rw [heq]
    obtain rfl | rfl | ⟨-, hbelow⟩ | ⟨-, habove⟩ := hside <;> omega

/-- What lies before the middle behind an odd number is rounded to at most that number. -/
theorem roundHalfEven_le_iff {a d k : Nat} (hd : 0 < d) (hodd : k % 2 = 1) :
    roundHalfEven a d ≤ k ↔ 2 * a < (2 * k + 1) * d := by
  have hdivision : a / d * d + a % d = a := Nat.div_add_mod' a d
  have hremainder : a % d < d := Nat.mod_lt a hd
  have hnext : (a / d + 1) * d = a / d * d + d := Nat.succ_mul _ _
  have hmiddle : (2 * k + 1) * d = 2 * (k * d) + d := by rw [Nat.succ_mul, Nat.mul_assoc]
  have hside := mul_cases k (a / d) d
  rw [hmiddle]
  obtain ⟨heq, hhalf, htie⟩ | ⟨heq, hhalf, htie⟩ := roundHalfEven_cases a d
  · rw [heq]
    obtain rfl | rfl | ⟨hlt, hbelow⟩ | ⟨hgt, habove⟩ := hside <;> omega
  · rw [heq]
    obtain rfl | rfl | ⟨hlt, hbelow⟩ | ⟨hgt, habove⟩ := hside <;> omega

namespace Binary64

/-- An integer that a double is equal to: a significand of at most 53 bits before a number of zero bits. -/
def Exact (n : Nat) : Prop :=
  ∃ significand exponent : Nat, significand < 2 ^ 53 ∧ exponent ≤ greatestExponent ∧ n = significand * 2 ^ exponent

/-- Rounding to nearest: no double is nearer to `n`, and if another one is as near then the significand is even. -/
structure IsNearest (n rounded : Nat) : Prop where
  isExact : Exact rounded
  nearest : ∀ other, Exact other → Nat.dist n rounded ≤ Nat.dist n other
  even : ∀ other, Exact other → other ≠ rounded → Nat.dist n rounded = Nat.dist n other →
    ∃ significand exponent : Nat, 2 ^ 52 ≤ significand ∧ significand < 2 ^ 53 ∧ significand % 2 = 0 ∧
      rounded = significand * 2 ^ exponent

/-- The least integer that is rounded beyond the greatest finite number. -/
def overflow : Nat := (2 ^ 54 - 1) * 2 ^ 970

/-- The exponent of the last of the 53 bits. -/
def lastPlace (n : Nat) : Nat := n.log2 - 52

/-- The first 53 bits, rounded. -/
def significand (n : Nat) : Nat := roundHalfEven n (2 ^ lastPlace n)

variable {n : Nat}

theorem lt_pow_lastPlace (n : Nat) : n < 2 ^ 53 * 2 ^ lastPlace n := by
  rw [← Nat.pow_add]
  refine Nat.lt_of_lt_of_le Nat.lt_log2_self (Nat.pow_le_pow_right (by decide) ?_)
  rw [lastPlace]
  omega

theorem pow_lastPlace_le (hplace : lastPlace n ≠ 0) : 2 ^ 52 * 2 ^ lastPlace n ≤ n := by
  rw [lastPlace] at hplace
  have hn : n ≠ 0 := by
    rintro rfl
    exact hplace rfl
  have hlog : 52 + lastPlace n = n.log2 := by
    rw [lastPlace]
    omega
  rw [← Nat.pow_add, hlog]
  exact Nat.log2_self_le hn

theorem significand_le (n : Nat) : significand n ≤ 2 ^ 53 := by
  have hlt : n / 2 ^ lastPlace n < 2 ^ 53 := Nat.div_lt_of_lt_mul (by
    rw [Nat.mul_comm]
    exact lt_pow_lastPlace n)
  rw [significand]
  obtain ⟨heq, -⟩ | ⟨heq, -⟩ := roundHalfEven_cases n (2 ^ lastPlace n) <;> omega

theorem le_significand (hplace : lastPlace n ≠ 0) : 2 ^ 52 ≤ significand n := by
  have hle : 2 ^ 52 ≤ n / 2 ^ lastPlace n :=
    (Nat.le_div_iff_mul_le (Nat.two_pow_pos _)).mpr (pow_lastPlace_le hplace)
  rw [significand]
  obtain ⟨heq, -⟩ | ⟨heq, -⟩ := roundHalfEven_cases n (2 ^ lastPlace n) <;> omega

theorem lastPlace_of_lt (hlt : n < 2 ^ 53) : lastPlace n = 0 := by
  by_contra hplace
  have hle := pow_lastPlace_le hplace
  have hpow : 2 ^ 1 ≤ 2 ^ lastPlace n := Nat.pow_le_pow_right (by decide) (by omega)
  omega

theorem significand_mul_of_lastPlace (hplace : lastPlace n = 0) : significand n * 2 ^ lastPlace n = n := by
  rw [significand, hplace, Nat.pow_zero, Nat.mul_one, roundHalfEven_one]

/-- The integers that have a place for the last of 53 bits once they are rounded: the place moves by one if the bits
are rounded up to `2 ^ 53`. -/
theorem lt_mul_pow_iff (place : Nat) :
    n < (2 ^ 54 - 1) * 2 ^ place ↔
      lastPlace n < place + 1 ∨ (lastPlace n = place + 1 ∧ significand n < 2 ^ 53) := by
  obtain hlt | heq | hgt := Nat.lt_trichotomy (lastPlace n) (place + 1)
  · have hbits := lt_pow_lastPlace n
    have hpow : 2 ^ lastPlace n ≤ 2 ^ place := Nat.pow_le_pow_right (by decide) (by omega)
    omega
  · have hround := roundHalfEven_le_iff (a := n) (k := 2 ^ 53 - 1) (Nat.two_pow_pos (place + 1)) (by decide)
    rw [← heq, ← significand, heq, Nat.pow_succ] at hround
    omega
  · have hbits := pow_lastPlace_le (n := n) (by omega)
    have hpow : 2 ^ (place + 2) ≤ 2 ^ lastPlace n := Nat.pow_le_pow_right (by decide) hgt
    rw [Nat.pow_add] at hpow
    omega

/-- Bits that are rounded up to `2 ^ 53` are 53 bits again, one place further. -/
theorem carry_eq (place : Nat) : 2 ^ 53 * 2 ^ place = 2 ^ 52 * 2 ^ (place + 1) := by
  rw [Nat.pow_succ 2 place]
  omega

/-- An integer of more bits is rounded to 53 of them. -/
theorem ofRatio_of_le (hle : 2 ^ 53 ≤ n) (negative : Bool) :
    ofRatio negative n 1 =
      if n < overflow then
        if significand n = 2 ^ 53 then .finite negative (2 ^ 52) (lastPlace n + 1 : Nat)
        else .finite negative (significand n) (lastPlace n)
      else .infinity negative := by
  have hn : n ≠ 0 := by omega
  have hlog : 53 ≤ n.log2 := (Nat.le_log2 hn).mpr hle
  have hexponent : max (binaryOrder n 1 - 52) leastExponent = (lastPlace n : Int) := by
    rw [binaryOrder_one hn, leastExponent, lastPlace]
    omega
  have hratio : shiftRatio n 1 (-(lastPlace n : Int)) = (n, 2 ^ lastPlace n) := by
    simp [shiftRatio]
  have hround : roundHalfEven n (2 ^ lastPlace n) = significand n := rfl
  have hfinite : n < overflow ↔ _ := lt_mul_pow_iff 970
  rw [ofRatio, if_neg hn, hexponent]
  dsimp only
  rw [hratio]
  dsimp only
  rw [hround]
  simp only [Nat.pow_eq]
  by_cases hcarry : significand n = 2 ^ 53
  · have hgreatest : greatestExponent < (lastPlace n : Int) + 1 ↔ ¬ n < overflow := by
      rw [hfinite, greatestExponent]
      omega
    rw [if_pos hcarry, if_pos hcarry]
    simp only [hgreatest, ite_not]
    rfl
  · have hbits : significand n < 2 ^ 53 := Nat.lt_of_le_of_ne (significand_le n) hcarry
    have hgreatest : greatestExponent < (lastPlace n : Int) ↔ ¬ n < overflow := by
      rw [hfinite, greatestExponent]
      omega
    rw [if_neg hcarry, if_neg hcarry]
    simp only [hgreatest, ite_not]

theorem toInt?_finite (negative : Bool) (significand exponent : Nat) :
    toInt? (.finite negative significand exponent) =
      some (if negative then -((significand * 2 ^ exponent : Nat) : Int) else (significand * 2 ^ exponent : Nat)) := by
  simp [toInt?, shiftRatio, Nat.mod_one]

theorem length_le_of_lt_overflow (hlt : n < overflow) : (Text.ofNat n).length ≤ 310 := by
  rw [Text.ofNat, Nat.length_toDigits_le_iff (by decide) (by decide)]
  refine Nat.lt_trans hlt ?_
  decide +kernel

/-- The double nearest to an integer is equal to the integer with the rounded bits. -/
theorem toInt?_ofDecimal_of_lt (hlt : n < overflow) (negative : Bool) :
    (ofDecimal negative n 0).toInt? =
      some (if negative then -((significand n * 2 ^ lastPlace n : Nat) : Int)
        else (significand n * 2 ^ lastPlace n : Nat)) := by
  obtain hsmall | hlarge := Nat.lt_or_ge n (2 ^ 53)
  · rw [toInt?_ofDecimal (Nat.le_of_lt hsmall), significand_mul_of_lastPlace (lastPlace_of_lt hsmall)]
  · have hlength := length_le_of_lt_overflow hlt
    have hratio : ofDecimal negative n 0 = ofRatio negative n 1 := by
      rw [ofDecimal, if_neg (by omega), if_neg (by omega)]
      simp
    rw [hratio, ofRatio_of_le hlarge, if_pos hlt]
    split
    · next hcarry => rw [toInt?_finite, hcarry, carry_eq]
    · exact toInt?_finite negative (significand n) (lastPlace n)

theorem ofDecimal_of_overflow_le (hle : overflow ≤ n) (negative : Bool) :
    ofDecimal negative n 0 = .infinity negative := by
  have hlarge : 2 ^ 53 ≤ n := Nat.le_trans (by decide +kernel) hle
  by_cases horder : (310 : Int) < (Text.ofNat n).length + 0
  · rw [ofDecimal, if_neg (by omega), if_pos horder]
  · rw [ofDecimal, if_neg (by omega), if_neg horder]
    simp only [Int.toNat_zero, Int.neg_zero, Nat.pow_eq, Nat.pow_zero, Nat.mul_one]
    rw [ofRatio_of_le hlarge, if_neg (by omega)]

theorem Exact.lt_overflow (hexact : Exact n) : n < overflow := by
  obtain ⟨bits, exponent, hbits, hexponent, rfl⟩ := hexact
  have hbound (place : Nat) (hplace : exponent ≤ place + 1) : bits * 2 ^ exponent < (2 ^ 54 - 1) * 2 ^ place := by
    have hpow : 2 ^ exponent ≤ 2 ^ (place + 1) := Nat.pow_le_pow_right (by decide) hplace
    have hmul : bits * 2 ^ exponent ≤ (2 ^ 53 - 1) * 2 ^ (place + 1) := Nat.mul_le_mul (by omega) hpow
    have hpos : 0 < 2 ^ place := Nat.two_pow_pos place
    rw [Nat.pow_succ] at hmul
    omega
  exact hbound 970 (by rw [greatestExponent] at hexponent; omega)

theorem exact_significand (hlt : n < overflow) : Exact (significand n * 2 ^ lastPlace n) := by
  have hfinite : n < overflow ↔ _ := lt_mul_pow_iff 970
  obtain hbits | hcarry := Nat.lt_or_eq_of_le (significand_le n)
  · refine ⟨significand n, lastPlace n, hbits, ?_, rfl⟩
    rw [greatestExponent]
    omega
  · refine ⟨2 ^ 52, lastPlace n + 1, by decide, ?_, ?_⟩
    · rw [greatestExponent]
      omega
    · rw [hcarry, carry_eq]

/-- A double that is not a multiple of the last place of `n` has a smaller exponent, so that it lies below the least
number with 53 bits and this last place. -/
theorem Exact.cases {other : Nat} (hexact : Exact other) (n : Nat) :
    (∃ k, other = k * 2 ^ lastPlace n) ∨ (lastPlace n ≠ 0 ∧ other < 2 ^ 52 * 2 ^ lastPlace n) := by
  obtain ⟨bits, exponent, hbits, -, rfl⟩ := hexact
  obtain hle | hlt := Nat.lt_or_ge exponent (lastPlace n)
  · right
    have hpow : 2 ^ (exponent + 1) ≤ 2 ^ lastPlace n := Nat.pow_le_pow_right (by decide) hle
    have hmul : bits * 2 ^ exponent < 2 ^ 53 * 2 ^ exponent := Nat.mul_lt_mul_of_pos_right hbits (Nat.two_pow_pos _)
    rw [carry_eq] at hmul
    omega
  · left
    refine ⟨bits * 2 ^ (exponent - lastPlace n), ?_⟩
    rw [Nat.mul_assoc, ← Nat.pow_add, Nat.sub_add_cancel hlt]

/-- A double that is no multiple of the last place is farther away than the rounded bits. -/
theorem dist_significand_lt {other : Nat} (hplace : lastPlace n ≠ 0) (hbelow : other < 2 ^ 52 * 2 ^ lastPlace n) :
    Nat.dist n (significand n * 2 ^ lastPlace n) < Nat.dist n other := by
  have hle := pow_lastPlace_le hplace
  have hleast := (roundHalfEven_nearest (a := n) (Nat.two_pow_pos (lastPlace n)) (2 ^ 52)).1
  refine Nat.lt_of_le_of_lt hleast ?_
  rw [Nat.dist, Nat.dist]
  omega

/-- Rounding an integer to 53 bits is rounding to the nearest double. -/
theorem isNearest_significand (hlt : n < overflow) : IsNearest n (significand n * 2 ^ lastPlace n) where
  isExact := exact_significand hlt
  nearest := by
    intro other hexact
    obtain ⟨k, rfl⟩ | ⟨hplace, hbelow⟩ := hexact.cases n
    · exact (roundHalfEven_nearest (Nat.two_pow_pos _) k).1
    · exact Nat.le_of_lt (dist_significand_lt hplace hbelow)
  even := by
    intro other hexact hne htie
    obtain ⟨k, rfl⟩ | ⟨hplace, hbelow⟩ := hexact.cases n
    · have hk : k ≠ significand n := by
        rintro rfl
        exact hne rfl
      have heven : significand n % 2 = 0 := (roundHalfEven_nearest (Nat.two_pow_pos _) k).2 hk htie
      -- there is no tie for an integer of at most 53 bits, which is not rounded
      have hplace : lastPlace n ≠ 0 := by
        intro hplace
        rw [significand_mul_of_lastPlace hplace] at hne htie
        rw [Nat.dist_self] at htie
        exact hne (Nat.eq_of_dist_eq_zero htie.symm).symm
      obtain hbits | hcarry := Nat.lt_or_eq_of_le (significand_le n)
      · exact ⟨significand n, lastPlace n, le_significand hplace, hbits, heven, rfl⟩
      · exact ⟨2 ^ 52, lastPlace n + 1, Nat.le_refl _, by decide, by decide, by rw [hcarry, carry_eq]⟩
    · exact absurd htie (dist_significand_lt hplace hbelow).ne

theorem IsNearest.eq_of_exact {rounded : Nat} (hnearest : IsNearest n rounded) (hexact : Exact n) : rounded = n := by
  have hdist := hnearest.nearest n hexact
  rw [Nat.dist_self, Nat.le_zero] at hdist
  exact (Nat.eq_of_dist_eq_zero hdist).symm

end Binary64

end ViewMarkup
