import ViewMarkup.Text.Basic

namespace ViewMarkup

/-- What shelters blanks from separating tokens: an open quote, and the number of open braces. -/
structure Shelter where
  quote : Option Char
  depth : Nat
  deriving DecidableEq, Repr

namespace Shelter

/-- No quote and no brace is open. -/
def none : Shelter := ⟨.none, 0⟩

/-- Whether nothing is open. -/
def isNone (shelter : Shelter) : Bool :=
  shelter.quote.isNone && shelter.depth == 0

/-- The shelter after one more character. A quote closes at the same character; braces count outside
quotes, and a closing brace without an opening one does not. -/
def step (shelter : Shelter) (c : Char) : Shelter :=
  match shelter.quote with
  | some quote => if c = quote then { shelter with quote := .none } else shelter
  | .none =>
    if c = '"' ∨ c = '\'' then { shelter with quote := some c }
    else if c = '\x7b' then { shelter with depth := shelter.depth + 1 }
    else if c = '\x7d' then { shelter with depth := shelter.depth - 1 }
    else shelter

end Shelter

/-- A token and the column of its first character. -/
structure PropertyToken where
  text : Text
  start : Int
  deriving DecidableEq, Repr

namespace PropertyToken

/-- The column after the last character. -/
def stop (token : PropertyToken) : Int :=
  token.start + token.text.length

/-- The tokens from a column on. `open?` holds the characters of a token that has begun, in reverse. -/
def scan (column : Int) (open? : Option PropertyToken) (shelter : Shelter) : Text → List PropertyToken
  | [] => open?.toList.map fun token => { token with text := token.text.reverse }
  | c :: rest =>
    if isBlank c && shelter.isNone then
      (open?.toList.map fun token => { token with text := token.text.reverse }) ++
        scan (column + 1) none shelter rest
    else
      let token := open?.getD ⟨[], column⟩
      scan (column + 1) (some { token with text := c :: token.text }) (shelter.step c) rest

/-- The tokens of a text that starts at the given column. -/
def tokens (column : Int) (t : Text) : List PropertyToken :=
  scan column none Shelter.none t

end PropertyToken

end ViewMarkup
