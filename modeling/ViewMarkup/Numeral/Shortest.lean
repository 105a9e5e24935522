import ViewMarkup.Numeral.Binary64

namespace ViewMarkup

/-- The decimal `digits * 10 ^ exponent`. -/
structure Decimal where
  digits : Nat
  exponent : Int
  deriving DecidableEq, Repr

namespace Binary64

/-- The point of the grid of multiples of `10 ^ place` that rounds to `significand * 2 ^ exponent`
and is nearest to it, if one rounds to it. Lengths are measured in quarters of the last binary place:
half a place on either side rounds to the number, a quarter below where the next smaller number is
twice as close, and the ends are included when the significand is even. -/
def gridPoint? (significand : Nat) (exponent place : Int) : Option Nat :=
  let quarter := Nat.pow 2 (exponent - 2).toNat * Nat.pow 10 (-place).toNat
  let step := Nat.pow 10 place.toNat * Nat.pow 2 (2 - exponent).toNat
  let value := 4 * significand * quarter
  let below := if significand = Nat.pow 2 52 ∧ leastExponent < exponent then 1 else 2
  let low := value - below * quarter
  let high := value + 2 * quarter
  let inside (x : Nat) : Bool :=
    (low < x && x < high) || (significand % 2 == 0 && (x == low || x == high))
  let floor := value / step
  let down := floor * step
  let up := (floor + 1) * step
  match inside down && 0 < floor, inside up with
  | false, false => none
  | true, false => some floor
  | false, true => some (floor + 1)
  | true, true =>
    if value - down < up - value ∨ (value - down = up - value ∧ floor % 2 = 0) then some floor
    else some (floor + 1)

/-- The decimal places that can hold the last digit of a shortest decimal, coarsest first. -/
def places : List Int :=
  (List.range 652).map fun (i : Nat) => 310 - (i : Int)

/-- The shortest decimal that rounds to `significand * 2 ^ exponent`. -/
def shortest (significand : Nat) (exponent : Int) : Decimal :=
  if significand = 0 then ⟨0, 0⟩
  else (places.findSome? fun place =>
    (gridPoint? significand exponent place).map (Decimal.mk · place)).getD ⟨0, 0⟩

end Binary64

/-- How a number is laid out. -/
structure DecimalLayout where
  /-- Positional notation needs the point to stand after more than this many digits; a negative
  count means zeros behind the point. -/
  pointAbove : Int
  /-- Positional notation needs the point to stand after at most this many digits. -/
  pointUpTo : Int
  /-- Written before an exponent that is not negative. -/
  exponentPlus : Text
  /-- The least number of digits of the exponent. -/
  exponentWidth : Nat
  /-- The undefined number. -/
  undefined : Text
  /-- The infinite number, without its sign. -/
  infinite : Text

namespace DecimalLayout

/-- The exponent of a number in scientific notation. -/
def exponentText (layout : DecimalLayout) (exponent : Int) : Text :=
  let digits := Text.ofNat exponent.natAbs
  (if exponent < 0 then "-".toList else layout.exponentPlus) ++
    List.replicate (layout.exponentWidth - digits.length) '0' ++ digits

/-- Digits with the point after the first `point` of them, or in scientific notation where the layout
asks for it. A positional numeral has a digit on both sides of the point. -/
def magnitude (layout : DecimalLayout) (decimal : Decimal) : Text :=
  let digits := Text.ofNat decimal.digits
  let point := decimal.exponent + digits.length
  if layout.pointAbove < point ∧ point ≤ layout.pointUpTo then
    if point ≤ 0 then "0." ++ List.replicate (-point).toNat '0' ++ digits
    else if digits.length ≤ point then
      digits ++ List.replicate (point - digits.length).toNat '0' ++ ".0"
    else digits.take point.toNat ++ "." ++ digits.drop point.toNat
  else
    digits.take 1 ++ (if digits.length = 1 then [] else '.' :: digits.drop 1) ++ "e" ++
      layout.exponentText (point - 1)

/-- The text of a number. -/
def write (layout : DecimalLayout) : Binary64 → Text
  | .nan => layout.undefined
  | .infinity negative => (if negative then "-".toList else []) ++ layout.infinite
  | .finite negative significand exponent =>
    (if negative then "-".toList else []) ++ layout.magnitude (Binary64.shortest significand exponent)

end DecimalLayout

end ViewMarkup
