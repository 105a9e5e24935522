import ViewMarkup.Text.Basic
import ViewMarkup.Text.Word

namespace ViewMarkup.Text

/-- The rest after one or more blanks. -/
def afterBlanks? : Text → Option Text
  | [] => none
  | c :: rest => if isBlank c then some (trimStart rest) else none

/-- A run of one or more word characters, and the rest. -/
def word? (t : Text) : Option (Text × Text) :=
  match t.takeWhile isWord with
  | [] => none
  | word => some (word, t.drop word.length)

/-- A name, which is a word that starts with an ASCII letter or the underscore, and the rest. -/
def name? (t : Text) : Option (Text × Text) :=
  match t with
  | [] => none
  | c :: _ => if isNameStart c then word? t else none

/-- The text itself, if it has characters and no line feed. -/
def oneLine? (t : Text) : Option Text :=
  if t = [] ∨ !isOneLine t then none else some t

end ViewMarkup.Text
