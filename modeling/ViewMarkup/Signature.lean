import ViewMarkup.Diagnostic
import ViewMarkup.Text.Word

namespace ViewMarkup

/-- A parameter of a component. -/
structure Parameter where
  name : Text
  type : Text
  isOptional : Bool
  deriving DecidableEq, Repr

/-- The name of a component and its parameters in order. -/
structure Signature where
  name : Text
  parameters : List Parameter
  deriving DecidableEq, Repr

namespace Signature

/-- The name, and the text between the outer parentheses. -/
def parts? (t : Text) : Option (Text × Text) :=
  match t.takeWhile isWord with
  | [] => none
  | name =>
    match t.drop name.length with
    | '(' :: rest =>
      if rest.getLast? = some ')' ∧ Text.isOneLine rest then some (name, rest.dropLast) else none
    | _ => none

/-- The name that a first line declares. -/
def declaredName? (line : Text) : Option Text :=
  (parts? (Text.trim line)).map Prod.fst

end Signature

/-- One entry of a parameter list and the column at which it starts. -/
structure ParameterEntry where
  text : Text
  start : Nat
  deriving DecidableEq, Repr

namespace ParameterEntry

/-- The number of brackets open after one more character. Every kind of bracket counts alike, and a
closing one without an opening one does not. -/
def depthAfter (depth : Nat) (c : Char) : Nat :=
  if c = '(' ∨ c = '[' ∨ c = '\x7b' ∨ c = '<' then depth + 1
  else if c = ')' ∨ c = ']' ∨ c = '\x7d' ∨ c = '>' then depth - 1
  else depth

/-- The trimmed entry that a piece holds, if it is not blank. The piece is given in reverse together
with the column after it. -/
def ofPiece (reversed : Text) (stop : Nat) : List ParameterEntry :=
  let piece := reversed.reverse
  if Text.trim piece = [] then []
  else [⟨Text.trim piece, stop - piece.length + Text.indent piece⟩]

/-- The entries from a column on, with the open brackets and the piece so far in reverse. -/
def scan (column depth : Nat) (piece : Text) : Text → List ParameterEntry
  | [] => if depth = 0 then ofPiece piece column else []
  | c :: rest =>
    if c = ',' ∧ depth = 0 then ofPiece piece column ++ scan (column + 1) 0 [] rest
    else scan (column + 1) (depthAfter depth c) (c :: piece) rest

/-- The entries between the commas that stand outside all brackets. What follows the last such comma
counts only if every bracket is closed again. -/
def split (t : Text) : List ParameterEntry :=
  scan 0 0 [] t

/-- The parameter that an entry declares: a name, a question mark perhaps, a colon and a type. -/
def parameter? (t : Text) : Option Parameter :=
  match t with
  | [] => none
  | head :: _ =>
    if !isNameStart head then none
    else
      let name := t.takeWhile isWord
      let (isOptional, rest) := match t.drop name.length with
        | '?' :: rest => (true, rest)
        | rest => (false, rest)
      match Text.trimStart rest with
      | ':' :: type =>
        let type := Text.trimStart type
        if type = [] ∨ !Text.isOneLine type then none
        else some ⟨name, Text.trim type, isOptional⟩
      | _ => none

end ParameterEntry

namespace Signature

/-- A parameter of the signature or, for a malformed entry, a diagnostic that covers the entry. -/
def readEntry (line : Int) (column : Int) (entry : ParameterEntry) : Except Diagnostic Parameter :=
  match ParameterEntry.parameter? entry.text with
  | some parameter => .ok parameter
  | none =>
    let start := column + entry.start
    .error (.error .invalidPropDefinition ("Invalid prop definition: " ++ entry.text) line start
      (start + entry.text.length))

/-- Reads a signature line. A malformed line is taken as a name as a whole; a malformed parameter is
reported and left out. -/
def read (source : Text) (line : Int) : Signature × List Diagnostic :=
  let text := Text.trim source
  let lead : Int := Text.indent source
  match parts? text with
  | none =>
    (⟨text, []⟩, [.error .invalidComponentSignature ("Invalid component signature: " ++ text) line lead
      (lead + text.length)])
  | some (name, parameters) =>
    let entries := (ParameterEntry.split parameters).map (readEntry line (lead + name.length + 1))
    (⟨name, entries.filterMap Except.toOption⟩,
      entries.filterMap fun
        | .error diagnostic => some diagnostic
        | .ok _ => none)

end Signature

end ViewMarkup
