import ViewMarkup.Numeral.Binary64
import ViewMarkup.Text.Digit

namespace ViewMarkup

/-- The exponent and the rest, if the text starts with an exponent mark, a sign perhaps, and at least
one of the digits that are allowed. -/
def exponent? (isAllowed : Char → Bool) : Text → Option (Int × Text)
  | mark :: rest =>
    if mark = 'e' ∨ mark = 'E' then
      let (negative, digits) := match rest with
        | '-' :: digits => (true, digits)
        | '+' :: digits => (false, digits)
        | digits => (false, digits)
      match digits.takeWhile isAllowed with
      | [] => none
      | spelled =>
        let value : Int := digitsValue spelled
        some (if negative then -value else value, digits.drop spelled.length)
    else none
  | [] => none

/-- A number literal: the digits without the point, the power of ten they are multiplied by, and
whether the literal has neither a point nor an exponent. -/
structure NumberLiteral where
  negative : Bool
  digits : Nat
  exponent : Int
  isWhole : Bool
  deriving DecidableEq, Repr

namespace NumberLiteral

/-- Reads a sign perhaps, digits with a point among or around them, and an exponent perhaps. -/
def ofText? (t : Text) : Option NumberLiteral :=
  let (negative, body) := match t with
    | '-' :: rest => (true, rest)
    | _ => (false, t)
  let whole := body.takeWhile isDecimal
  let (point, fraction, rest) := match body.drop whole.length with
    | '.' :: rest =>
      let fraction := rest.takeWhile isDecimal
      (true, fraction, rest.drop fraction.length)
    | rest => (false, [], rest)
  if whole.isEmpty && fraction.isEmpty then none
  else
    let literal (exponent : Int) (isWhole : Bool) : NumberLiteral :=
      ⟨negative, digitsValue (whole ++ fraction), exponent - fraction.length, isWhole⟩
    match exponent? isDecimal rest with
    | some (exponent, rest) => if Text.atLineEnd rest then some (literal exponent false) else none
    | none => if Text.atLineEnd rest then some (literal 0 !point) else none

/-- The double nearest to the literal. -/
def toBinary64 (literal : NumberLiteral) : Binary64 :=
  Binary64.ofDecimal literal.negative literal.digits literal.exponent

end NumberLiteral

end ViewMarkup
