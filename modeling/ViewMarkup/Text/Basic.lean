import ViewMarkup.Text.Blank

namespace ViewMarkup

/-- Text is a list of characters, so every column, offset and length counts characters. -/
abbrev Text := List Char

/-- A string literal stands for the text it spells. -/
instance : Coe String Text := ⟨String.toList⟩

namespace Text

/-- The text without its leading blanks. -/
def trimStart (t : Text) : Text :=
  t.dropWhile isBlank

/-- The text without its trailing blanks. -/
def trimEnd (t : Text) : Text :=
  (t.reverse.dropWhile isBlank).reverse

/-- The text without its leading and trailing blanks. -/
def trim (t : Text) : Text :=
  trimEnd (trimStart t)

/-- The number of leading blanks. -/
def indent (t : Text) : Nat :=
  (t.takeWhile isBlank).length

/-- What follows `lead`, if the text starts with it. -/
def after? : (lead t : Text) → Option Text
  | [], t => some t
  | _ :: _, [] => none
  | c :: cs, d :: ds => if c = d then after? cs ds else none

/-- What stands before `trail`, if the text ends with it. -/
def before? (trail t : Text) : Option Text :=
  (after? trail.reverse t.reverse).map List.reverse

/-- The text before the first `c`, and the text after it if there is a `c`. -/
def cut (c : Char) (t : Text) : Text × Option Text :=
  (t.takeWhile (· != c), (t.dropWhile (· != c)).tail?)

/-- The pieces between the occurrences of `c`; there is always at least one. -/
def split (c : Char) : Text → List Text
  | [] => [[]]
  | d :: ds =>
    if d = c then [] :: split c ds
    else match split c ds with
      | [] => [[d]]
      | piece :: pieces => (d :: piece) :: pieces

/-- The pieces with `separator` between them. -/
def join (separator : Text) (pieces : List Text) : Text :=
  List.intercalate separator pieces

/-- Replaces from the left, after skipping the given number of characters. -/
def replaceFrom (old new : Text) : Nat → Text → Text
  | _, [] => []
  | skip + 1, _ :: cs => replaceFrom old new skip cs
  | 0, c :: cs =>
    if old.isPrefixOf (c :: cs) then new ++ replaceFrom old new (old.length - 1) cs
    else c :: replaceFrom old new 0 cs

/-- Replaces every occurrence of `old`, which is not empty, from the left and without overlap. -/
def replace (old new t : Text) : Text :=
  replaceFrom old new 0 t

/-- Every `old` character becomes `new`. -/
def replaceChar (old new : Char) (t : Text) : Text :=
  t.map fun c => if c = old then new else c

/-- The text repeated; a count below one gives the empty text. -/
def times (t : Text) (count : Int) : Text :=
  (List.replicate count.toNat t).flatten

/-- The decimal numeral of a natural number. -/
def ofNat (n : Nat) : Text :=
  Nat.toDigits 10 n

/-- The hexadecimal numeral of a number, with leading zeros up to a width. -/
def hex (width n : Nat) : Text :=
  let digits := Nat.toDigits 16 n
  List.replicate (width - digits.length) '0' ++ digits

/-- The decimal numeral of an integer. -/
def ofInt : Int → Text
  | .ofNat n => ofNat n
  | .negSucc n => '-' :: ofNat (n + 1)

/-- Whether the text is empty or holds only a line feed: the two places where a line may end. -/
def atLineEnd (t : Text) : Bool :=
  t == [] || t == ['\n']

/-- Whether the text has no line feed. -/
def isOneLine (t : Text) : Bool :=
  !t.contains '\n'

end Text

end ViewMarkup
