import ViewMarkup.Diagnostic
import ViewMarkup.Log
import ViewMarkup.Node.Basic

namespace ViewMarkup

/-- A line that is not blank, with its place. -/
structure SourceLine where
  text : Text
  /-- The number of the line, counted from zero. -/
  number : Int
  /-- The column of the first character that is not blank. -/
  indent : Int
  /-- Whether the innermost open container is a list at this indent. -/
  inList : Bool
  deriving DecidableEq, Repr

/-- The line without the blanks around it. -/
def SourceLine.trimmed (line : SourceLine) : Text :=
  Text.trim line.text

/-- The outcome of reading a line: a node, unless the line is dropped, what is wrong with it, and what
a verbose run reports. -/
structure Reading where
  node? : Option Node
  diagnostics : List Diagnostic
  log : List LogRecord
  deriving Repr

namespace Reading

/-- A node without faults. -/
def ofNode (node : Node) : Reading :=
  ⟨some node, [], []⟩

/-- A dropped line with its fault. -/
def dropped (diagnostic : Diagnostic) : Reading :=
  ⟨none, [diagnostic], []⟩

end Reading

end ViewMarkup
