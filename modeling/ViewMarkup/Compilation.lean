import ViewMarkup.Settings.Basic

namespace ViewMarkup

/-- The text of an output file, and whether it stands in for a module that could not be generated. -/
structure Compilation where
  code : Text
  isFallback : Bool
  deriving DecidableEq, Repr

namespace Compilation

/-- The name by which messages call a document. -/
def documentName (document : Document) : Text :=
  match document.signature? with
  | some signature => signature.name
  | none => "component"

/-- The comment in place of a module. -/
def fallback (name : Text) (failure : React.Failure) : Text :=
  "// Error: failed to generate " ++ name ++ ": " ++ failure.message ++ "\n"

/-- Whether a failure is about the document: those are reported in the output. A number that is too long
for its seed is not. -/
def isReported : React.Failure → Bool
  | .longInteger _ => false
  | _ => true

/-- The text of the output file of a document, with its log. -/
def run (document : Document) (resolver : Resolver) (options : React.Options) :
    Except React.Failure (Compilation × List LogRecord) :=
  match React.generate document resolver options with
  | .ok code => .ok (⟨code, false⟩, [])
  | .error failure =>
    if isReported failure then
      let name := documentName document
      .ok (⟨fallback name failure, true⟩,
        [⟨.error, .pipeline, "generation failed for " ++ name ++ ": " ++ failure.message⟩])
    else .error failure

/-- The text of the output file of a document. -/
def ofDocument (document : Document) (resolver : Resolver) (settings : Settings) :
    Except React.Failure Compilation :=
  (run document resolver settings.options).map Prod.fst

/-- The text of the output file of a source text. -/
def ofText (t : Text) (resolver : Resolver) (settings : Settings) : Except React.Failure Compilation :=
  ofDocument (Document.ofText t) resolver settings

end Compilation

end ViewMarkup
