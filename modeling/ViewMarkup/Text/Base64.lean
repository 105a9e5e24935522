import ViewMarkup.Text.Basic

namespace ViewMarkup.Base64

/-- The six bits that a character stands for. -/
def sextet? (c : Char) : Option Nat :=
  if 'A' ≤ c ∧ c ≤ 'Z' then some (c.toNat - 'A'.toNat)
  else if 'a' ≤ c ∧ c ≤ 'z' then some (c.toNat - 'a'.toNat + 26)
  else if '0' ≤ c ∧ c ≤ '9' then some (c.toNat - '0'.toNat + 52)
  else if c = '+' then some 62
  else if c = '/' then some 63
  else none

/-- The characters that count, up to the padding that completes a group of four. Padding elsewhere and
all other characters are skipped. The first argument is the number of characters in the group, the
second the padding that stands right before. -/
def sextets? : (filled padding : Nat) → Text → Option (List Nat)
  | filled, _, [] => if filled = 0 then some [] else none
  | filled, padding, c :: rest =>
    if c = '=' then
      if 2 ≤ filled ∧ 4 ≤ filled + padding + 1 then some []
      else sextets? filled (if 2 ≤ filled then padding + 1 else padding) rest
    else match sextet? c with
      | some n => (sextets? ((filled + 1) % 4) 0 rest).map (n :: ·)
      | none => sextets? filled padding rest

/-- The octets of groups of four; an incomplete last group gives one octet less than it has
characters. -/
def octets : List Nat → List UInt8
  | a :: b :: c :: d :: rest =>
    UInt8.ofNat (a * 4 + b / 16) :: UInt8.ofNat (b % 16 * 16 + c / 4) :: UInt8.ofNat (c % 4 * 64 + d) ::
      octets rest
  | [a, b, c] => [UInt8.ofNat (a * 4 + b / 16), UInt8.ofNat (b % 16 * 16 + c / 4)]
  | [a, b] => [UInt8.ofNat (a * 4 + b / 16)]
  | _ => []

/-- The octets that a text spells, if all its characters are ASCII and its last group is complete. -/
def decode? (t : Text) : Option (List UInt8) :=
  if t.all fun c => c.toNat < 128 then (sextets? 0 0 t).map octets else none

end ViewMarkup.Base64
