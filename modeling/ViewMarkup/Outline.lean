import ViewMarkup.Diagnostic
import ViewMarkup.Document.Basic

namespace ViewMarkup

/-- The kinds of symbols. -/
inductive SymbolKind where
  | component
  | block
  | value
  deriving DecidableEq, Repr

namespace SymbolKind

/-- The number of a kind in editor protocols. -/
def number : SymbolKind → Nat
  | component => 5
  | block => 12
  | value => 13

/-- The name of a kind. -/
def name : SymbolKind → Text
  | component => "klass"
  | block => "function"
  | value => "variable"

end SymbolKind

/-- An entry of an outline with the entries below it. -/
inductive Symbol where
  | mk (name : Text) (kind : SymbolKind) (range selection : Range) (children : List Symbol)
  deriving Repr

namespace Symbol

/-- The name of the entry. -/
def name : Symbol → Text
  | mk name _ _ _ _ => name

/-- The kind of the entry. -/
def kind : Symbol → SymbolKind
  | mk _ kind _ _ _ => kind

/-- The lines of the entry. -/
def range : Symbol → Range
  | mk _ _ range _ _ => range

/-- The part of the entry that is selected when it is chosen. -/
def selection : Symbol → Range
  | mk _ _ _ selection _ => selection

/-- The entries below the entry. -/
def children : Symbol → List Symbol
  | mk _ _ _ _ children => children

end Symbol

namespace Outline

/-- Name and kind of the entry for a node; only loops, guards, data and state have one. -/
def entry? : Content → Option (Text × SymbolKind)
  | .loop item collection => some ("for " ++ item ++ " in " ++ collection, .block)
  | .guard condition => some ("if " ++ condition, .block)
  | .data name _ => some ("Data " ++ name, .value)
  | .state name _ => some ("State " ++ name, .value)
  | _ => none

/-- The lines of a node, from the start of the first to the start of the last. -/
def lineRange : Option Span → Range
  | none => Range.onLine 0 0 0
  | some span => ⟨⟨span.startLine, 0⟩, ⟨span.endLine, 0⟩⟩

mutual

/-- The entries of a node: its own with those of the nodes below it inside, or only the latter. -/
def symbols : Node → List Symbol
  | .mk content span? children =>
    match entry? content with
    | some (name, kind) =>
      [.mk name kind (lineRange span?) (lineRange span?) (forestSymbols children)]
    | none => forestSymbols children

/-- The entries of a forest. -/
def forestSymbols : List Node → List Symbol
  | [] => []
  | node :: nodes => symbols node ++ forestSymbols nodes

end

/-- The outline of a document: one entry for the component, or nothing without a signature. -/
def ofDocument (document : Document) (lineCount : Int) : List Symbol :=
  match document.signature? with
  | none => []
  | some signature =>
    [.mk signature.name .component ⟨⟨0, 0⟩, ⟨max (lineCount - 1) 0, 0⟩⟩
      (Range.onLine 0 0 signature.name.length) (forestSymbols document.nodes)]

/-- The outline of a text. -/
def ofText (t : Text) : List Symbol :=
  ofDocument (Document.ofText t) (Text.lines t).length

/-- The outline of a text under an address; an address that is not a source has none. Case does not
matter in the suffix. -/
def ofResource (t uri : Text) : List Symbol :=
  let lower := uri.map Char.toLower
  if Document.suffixes.any fun suffix => (Text.before? suffix lower).isSome then ofText t else []

end Outline

end ViewMarkup
