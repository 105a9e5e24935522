import ViewMarkup.Document.Draft
import ViewMarkup.Signature
import ViewMarkup.Text.Lines

namespace ViewMarkup

/-- What was read from a text. -/
structure Document where
  nodes : List Node
  /-- There is no signature if the first line is blank. -/
  signature? : Option Signature
  diagnostics : List Diagnostic
  /-- The imports hoisted out of scripts, each once. -/
  imports : List Text
  deriving Repr

namespace Document

/-- The suffixes of the files that hold documents. -/
def suffixes : List Text := [".lnr".toList, ".lunor".toList]

/-- The summary of a document in the log. -/
def summary (name : Text) (document : Document) : Text :=
  "parsed " ++ name ++ ": " ++ Text.ofNat document.nodes.length ++ " root node(s), " ++
    Text.ofNat document.diagnostics.length ++ " diagnostic(s), " ++
    Text.ofNat document.imports.length ++ " hoisted import(s)"

/-- The document of a signature line and the lines below it, with the log of reading it. -/
def ofLines (first : Text) (body : List Text) : Document × List LogRecord :=
  if Text.trim first = [] then
    (⟨[], none, [.error .emptyFile "File must not be empty" 0 0 0], []⟩, [])
  else
    let (signature, diagnostics) := Signature.read first 0
    let draft := Draft.run { Draft.empty with diagnostics } 1 body
    let document : Document := ⟨draft.forest, some signature, draft.diagnostics, draft.imports⟩
    (document, draft.log ++ [⟨.debug, .documents, document.summary signature.name⟩])

/-- Reads a text, and gives the log of reading it. -/
def read (t : Text) : Document × List LogRecord :=
  match Text.lines t with
  | [] => ofLines [] []
  | first :: body => ofLines first body

/-- Reads a text. -/
def ofText (t : Text) : Document :=
  (read t).1

end Document

end ViewMarkup
