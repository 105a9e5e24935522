import ViewMarkup.Text.Basic

namespace ViewMarkup

/-- An open container. -/
structure Frame (α : Type) where
  indent : Int
  isList : Bool
  item : α
  deriving Repr

namespace Frame

variable {α : Type}

/-- Whether a line closes the container: it does unless it is deeper, or continues a list at its own indent. -/
def isClosedBy (indent : Int) (isItem : Bool) (frame : Frame α) : Bool :=
  indent ≤ frame.indent && !(isItem && frame.indent == indent && frame.isList)

/-- The containers that stay open for a line. The first one is its parent. -/
def resolve (indent : Int) (isItem : Bool) (frames : List (Frame α)) : List (Frame α) :=
  frames.dropWhile (isClosedBy indent isItem)

/-- Whether the innermost container is a list at the given indent. -/
def inList (indent : Int) : List (Frame α) → Bool
  | [] => false
  | frame :: _ => frame.indent == indent && frame.isList

end Frame

end ViewMarkup
