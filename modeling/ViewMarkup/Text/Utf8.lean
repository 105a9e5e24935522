import ViewMarkup.Text.Lines

namespace ViewMarkup

/-- What is wrong with bytes that are not UTF-8. -/
inductive Utf8Fault where
  | invalidStart
  | invalidContinuation
  | unexpectedEnd
  deriving DecidableEq, Repr

/-- The text of a fault. -/
def Utf8Fault.text : Utf8Fault → Text
  | invalidStart => "invalid start byte"
  | invalidContinuation => "invalid continuation byte"
  | unexpectedEnd => "unexpected end of data"

/-- The first bytes that are not UTF-8: where they are, how many, and the first of them. -/
structure Utf8Error where
  fault : Utf8Fault
  position : Nat
  length : Nat
  byte : UInt8
  deriving DecidableEq, Repr

/-- The message of an error. -/
def Utf8Error.message (error : Utf8Error) : Text :=
  let place : Text :=
    if error.length = 1 then
      "byte 0x" ++ Text.hex 2 error.byte.toNat ++ " in position " ++ Text.ofNat error.position
    else
      "bytes in position " ++ Text.ofNat error.position ++ "-" ++
        Text.ofNat (error.position + error.length - 1)
  "'utf-8' codec can't decode " ++ place ++ ": " ++ error.fault.text

namespace Utf8

/-- The bytes of a text. -/
def encode (t : Text) : List UInt8 :=
  t.flatMap String.utf8EncodeChar

/-- Whether a byte continues a character. -/
def isContinuation (byte : UInt8) : Bool :=
  0x80 ≤ byte && byte < 0xc0

/-- Whether a byte may follow the first byte of a character. Spellings that are too long, surrogates and
numbers beyond the last character are excluded here. -/
def isSecond (first second : UInt8) : Bool :=
  isContinuation second &&
    !(first == 0xe0 && second < 0xa0) && !(first == 0xed && 0xa0 ≤ second) &&
    !(first == 0xf0 && second < 0x90) && !(first == 0xf4 && 0x90 ≤ second)

/-- The character whose leading bits come before six bits from each of the other bytes. -/
def assemble (lead : Nat) (others : List UInt8) : Char :=
  Char.ofNat (others.foldl (fun n byte => 64 * n + (byte.toNat - 0x80)) lead)

/-- The text of bytes that start at a position. -/
def decodeFrom (position : Nat) : List UInt8 → Except Utf8Error Text
  | [] => .ok []
  | a :: afterA =>
    if a < 0x80 then (decodeFrom (position + 1) afterA).map (assemble a.toNat [] :: ·)
    else if a < 0xc2 || 0xf5 ≤ a then .error ⟨.invalidStart, position, 1, a⟩
    else match afterA with
      | [] => .error ⟨.unexpectedEnd, position, 1, a⟩
      | b :: afterB =>
        if !isSecond a b then .error ⟨.invalidContinuation, position, 1, a⟩
        else if a < 0xe0 then
          (decodeFrom (position + 2) afterB).map (assemble (a.toNat - 0xc0) [b] :: ·)
        else match afterB with
          | [] => .error ⟨.unexpectedEnd, position, 2, a⟩
          | c :: afterC =>
            if !isContinuation c then .error ⟨.invalidContinuation, position, 2, a⟩
            else if a < 0xf0 then
              (decodeFrom (position + 3) afterC).map (assemble (a.toNat - 0xe0) [b, c] :: ·)
            else match afterC with
              | [] => .error ⟨.unexpectedEnd, position, 3, a⟩
              | d :: afterD =>
                if !isContinuation d then .error ⟨.invalidContinuation, position, 3, a⟩
                else (decodeFrom (position + 4) afterD).map (assemble (a.toNat - 0xf0) [b, c, d] :: ·)

/-- The text of bytes. -/
def decode (bytes : List UInt8) : Except Utf8Error Text :=
  decodeFrom 0 bytes

/-- The text of bytes, every line end as one character. -/
def decodeLines (bytes : List UInt8) : Except Utf8Error Text :=
  (decode bytes).map Text.foldNewlines

/-- The line before the first line end. -/
def leadingLine (t : Text) : Text :=
  t.takeWhile (· != '\n')

/-- The first line of bytes. A character cut off at the end of the bytes matters only if the first line
reaches it; its bytes are then counted on their own. A carriage return right before it does not yet end
the line. -/
def firstLine (bytes : List UInt8) : Except Utf8Error Text :=
  match decode bytes with
  | .ok t => .ok (leadingLine (Text.foldNewlines t))
  | .error error =>
    if error.fault ≠ .unexpectedEnd then .error error
    else
      let t := match decode (bytes.take error.position) with
        | .ok t => t
        | .error _ => []
      let settled := if t.getLast? = some '\r' then t.dropLast else t
      if (Text.foldNewlines settled).contains '\n' then .ok (leadingLine (Text.foldNewlines settled))
      else .error { error with position := 0 }

end Utf8

end ViewMarkup
