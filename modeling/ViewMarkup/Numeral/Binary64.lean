import ViewMarkup.Text.Basic

namespace ViewMarkup

/-- A double-precision number. A finite one is `significand * 2 ^ exponent`; the significand has 53 bits unless the
exponent is the least one, so equal numbers have equal parts. -/
inductive Binary64 where
  | nan
  | infinity (negative : Bool)
  | finite (negative : Bool) (significand : Nat) (exponent : Int)
  deriving DecidableEq, Repr

/-- The natural number nearest to `a / d`; a half goes to the even neighbour. -/
def roundHalfEven (a d : Nat) : Nat :=
  if 2 * (a % d) < d ∨ (2 * (a % d) = d ∧ a / d % 2 = 0) then a / d else a / d + 1

/-- Numerator and denominator of `num / den * 2 ^ shift`. -/
def shiftRatio (num den : Nat) (shift : Int) : Nat × Nat :=
  (num * Nat.pow 2 shift.toNat, den * Nat.pow 2 (-shift).toNat)

namespace Binary64

/-- The exponent of the numbers with the smallest magnitude. -/
def leastExponent : Int := -1074

/-- The exponent of the finite numbers with the largest magnitude. -/
def greatestExponent : Int := 971

/-- Zero keeps its sign. -/
def zero (negative : Bool) : Binary64 :=
  .finite negative 0 leastExponent

/-- The `e` with `2 ^ e ≤ num / den < 2 ^ (e + 1)`, for positive `num` and `den`. -/
def binaryOrder (num den : Nat) : Int :=
  let e : Int := num.log2 - den.log2
  let (n, d) := shiftRatio num den (-e)
  if d ≤ n then e else e - 1

/-- The double nearest to `num / den` for positive `den`; a tie goes to the even significand, and
what rounds beyond the greatest finite number is infinite. -/
def ofRatio (negative : Bool) (num den : Nat) : Binary64 :=
  if num = 0 then zero negative
  else
    let exponent := max (binaryOrder num den - 52) leastExponent
    let (n, d) := shiftRatio num den (-exponent)
    let rounded := roundHalfEven n d
    let (significand, exponent) :=
      if rounded = Nat.pow 2 53 then (Nat.pow 2 52, exponent + 1) else (rounded, exponent)
    if greatestExponent < exponent then .infinity negative
    else .finite negative significand exponent

/-- The double nearest to `digits * 10 ^ exponent`. Decimals far outside the range are decided by
their order of magnitude alone, so that no huge power is computed. -/
def ofDecimal (negative : Bool) (digits : Nat) (exponent : Int) : Binary64 :=
  let order : Int := (Text.ofNat digits).length + exponent
  if digits = 0 ∨ order < -330 then zero negative
  else if 310 < order then .infinity negative
  else ofRatio negative (digits * Nat.pow 10 exponent.toNat) (Nat.pow 10 (-exponent).toNat)

/-- The integer that a number is equal to, if there is one. -/
def toInt? : Binary64 → Option Int
  | .finite negative significand exponent =>
    let (n, d) := shiftRatio significand 1 exponent
    if n % d = 0 then some (if negative then -(n / d : Nat) else (n / d : Nat)) else none
  | _ => none

/-- The number with the other sign. -/
def neg : Binary64 → Binary64
  | .nan => .nan
  | .infinity negative => .infinity (!negative)
  | .finite negative significand exponent => .finite (!negative) significand exponent

/-- The sum of two numbers, rounded. -/
def add : Binary64 → Binary64 → Binary64
  | .nan, _ | _, .nan => .nan
  | .infinity a, .infinity b => if a = b then .infinity a else .nan
  | .infinity a, _ | _, .infinity a => .infinity a
  | .finite a m p, .finite b n q =>
    let least := min p q
    let part (negative : Bool) (significand : Nat) (exponent : Int) : Int :=
      let magnitude : Int := (significand * Nat.pow 2 (exponent - least).toNat : Nat)
      if negative then -magnitude else magnitude
    let sum := part a m p + part b n q
    let (num, den) := shiftRatio sum.natAbs 1 least
    ofRatio (if sum = 0 then a && b else sum < 0) num den

/-- The product of two numbers, rounded. -/
def mul : Binary64 → Binary64 → Binary64
  | .nan, _ | _, .nan => .nan
  | .infinity a, .infinity b => .infinity (a != b)
  | .infinity a, .finite b n _ | .finite b n _, .infinity a =>
    if n = 0 then .nan else .infinity (a != b)
  | .finite a m p, .finite b n q =>
    let (num, den) := shiftRatio (m * n) 1 (p + q)
    ofRatio (a != b) num den

/-- Whether the number is neither infinite nor undefined. -/
def isFinite : Binary64 → Bool
  | .finite .. => true
  | _ => false

end Binary64

end ViewMarkup
