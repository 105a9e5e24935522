import ViewMarkup.Text.Basic
import ViewMarkup.Text.Word

namespace ViewMarkup

/-- What has been read of a reference. -/
inductive ReferenceState where
  | start
  | name
  | dot
  | member
  | arguments
  | called
  | invalid
  deriving DecidableEq, Repr

namespace ReferenceState

/-- A character that a name may start with. -/
def isHead (c : Char) : Bool :=
  isNameStart c || c == '$'

/-- A character that a name may go on with. -/
def isTail (c : Char) : Bool :=
  isWord c || c == '$'

/-- After a complete name or call: an opening parenthesis or a dot. -/
def access (c : Char) : ReferenceState :=
  if c = '(' then .arguments else if c = '.' then .dot else .invalid

/-- The state after one more character. -/
def step (state : ReferenceState) (c : Char) : ReferenceState :=
  match state with
  | start => if isHead c then .name else .invalid
  | name => if isTail c then .name else access c
  | dot => if isHead c then .member else .invalid
  | member => if isTail c then .member else access c
  | arguments => if c = ')' then .called else if c = '(' then .invalid else .arguments
  | called => access c
  | invalid => .invalid

end ReferenceState

/-- Whether the text is a reference: a name with calls and member accesses behind it, as in `store.load(1).items`.
A single name is none. -/
def isReference (t : Text) : Bool :=
  match t.foldl ReferenceState.step .start with
  | .member | .called => true
  | _ => false

end ViewMarkup
