import ViewMarkup.Yaml.Error

namespace ViewMarkup.Yaml

/-- A time of day, and how far it is ahead of universal time if that is told. -/
structure ClockTime where
  hour : Nat
  minute : Nat
  second : Nat
  /-- The offset in minutes. -/
  offset? : Option Int
  deriving DecidableEq, Repr

/-- A date, perhaps with a time of day. The parts may be out of range. -/
structure Timestamp where
  year : Nat
  month : Nat
  day : Nat
  time? : Option ClockTime
  deriving DecidableEq, Repr

namespace Timestamp

/-- A number of at least `least` and at most `most` digits, as many as there are, and the rest. -/
def number? (least most : Nat) (t : Text) : Option (Nat × Text) :=
  let digits := (t.take most).takeWhile Char.isDigit
  if digits.length < least then none
  else some (digits.foldl (fun n c => 10 * n + (c.toNat - '0'.toNat)) 0, t.drop digits.length)

/-- An offset from universal time: the letter for none, or a sign with hours and perhaps minutes. -/
def offset? (t : Text) : Option Int := do
  let signed (sign : Int) (rest : Text) : Option Int := do
    let (hours, rest) ← number? 1 2 rest
    match rest with
    | [] => return sign * (60 * hours : Nat)
    | ':' :: rest =>
      let (minutes, rest) ← number? 2 2 rest
      if rest = [] then return sign * (60 * hours + minutes : Nat) else none
    | _ => none
  match t with
  | ['Z'] => return 0
  | '+' :: rest => signed 1 rest
  | '-' :: rest => signed (-1) rest
  | _ => none

/-- A time of day with seconds, perhaps a fraction of a second, and perhaps an offset. -/
def clockTime? (t : Text) : Option ClockTime := do
  let (hour, rest) ← number? 1 2 t
  let (minute, rest) ← number? 2 2 (← Text.after? ":" rest)
  let (second, rest) ← number? 2 2 (← Text.after? ":" rest)
  let rest := match rest with
    | '.' :: rest => rest.dropWhile Char.isDigit
    | rest => rest
  if rest = [] then return ⟨hour, minute, second, none⟩
  else return ⟨hour, minute, second, some (← offset? (rest.dropWhile fun c => c == ' ' || c == '\t'))⟩

/-- Reads a date. A letter or blanks part it from the time of day. -/
def ofText? (t : Text) : Option Timestamp := do
  let (year, rest) ← number? 4 4 t
  let (month, rest) ← number? 1 2 (← Text.after? "-" rest)
  let (day, rest) ← number? 1 2 (← Text.after? "-" rest)
  match rest with
  | [] => return ⟨year, month, day, none⟩
  | c :: rest =>
    if c = 'T' ∨ c = 't' then return ⟨year, month, day, some (← clockTime? rest)⟩
    else if c = ' ' ∨ c = '\t' then
      return ⟨year, month, day, some (← clockTime? (rest.dropWhile fun c => c == ' ' || c == '\t'))⟩
    else none

/-- Whether an unquoted scalar is a date. Without a time of day, month and day have two digits. -/
def isSpelledBy (t : Text) : Bool :=
  match ofText? t with
  | some timestamp => timestamp.time?.isSome || t.length == 10
  | none => false

/-- The number of days of a month. -/
def daysOf (year month : Nat) : Nat :=
  if month = 2 then
    if year % 4 = 0 ∧ (year % 100 ≠ 0 ∨ year % 400 = 0) then 29 else 28
  else if [4, 6, 9, 11].contains month then 30
  else 31

/-- What is out of range, if anything is: the offset counts first, then the parts from the year on. -/
def error? (timestamp : Timestamp) : Option YamlError :=
  let offset : Int := ((timestamp.time?.bind ClockTime.offset?).getD 0)
  if 1440 ≤ offset.natAbs then some (.offset offset)
  else if timestamp.year = 0 then some (.year timestamp.year)
  else if timestamp.month = 0 ∨ 12 < timestamp.month then some .month
  else if timestamp.day = 0 ∨ daysOf timestamp.year timestamp.month < timestamp.day then some .day
  else match timestamp.time? with
    | none => none
    | some time =>
      if 23 < time.hour then some .hour
      else if 59 < time.minute then some .minute
      else if 59 < time.second then some .second
      else none

end Timestamp

end ViewMarkup.Yaml
