import ViewMarkup.Document.Basic
import ViewMarkup.Json.Writer

namespace ViewMarkup

/-- A position as JSON. -/
def Position.toJson (position : Position) : Json :=
  .object [Json.member "line" (.int position.line), Json.member "character" (.int position.character)]

/-- A range as JSON. -/
def Range.toJson (range : Range) : Json :=
  .object [Json.member "start" range.start.toJson, Json.member "end" range.stop.toJson]

/-- A diagnostic as JSON. -/
def Diagnostic.toJson (diagnostic : Diagnostic) : Json :=
  .object [Json.member "message" (.string diagnostic.message),
    Json.member "severity" (.int diagnostic.severity.number),
    Json.member "range" diagnostic.range.toJson,
    Json.member "code" (.string diagnostic.code.name)]

/-- A parameter as JSON. -/
def Parameter.toJson (parameter : Parameter) : Json :=
  .object [Json.member "name" (.string parameter.name), Json.member "type" (.string parameter.type),
    Json.member "optional" (.bool parameter.isOptional)]

/-- A signature as JSON. -/
def Signature.toJson (signature : Signature) : Json :=
  .object [Json.member "name" (.string signature.name),
    Json.member "parameters" (.array (signature.parameters.map Parameter.toJson))]

/-- The signature of a document as JSON, null if there is none. -/
def Document.signatureJson (document : Document) : Json :=
  match document.signature? with
  | some signature => signature.toJson
  | none => .null

namespace Sidecar

/-- What the sidecar of a document holds. -/
def ofDocument (source : Text) (document : Document) : Json :=
  .object [Json.member "source" (.string source),
    Json.member "component" document.signatureJson,
    Json.member "diagnostics" (.array (document.diagnostics.map Diagnostic.toJson)),
    Json.member "imports" (.array (document.imports.map .string))]

/-- The text of the sidecar of a document. -/
def write (source : Text) (document : Document) : Text :=
  Json.writeIndented .ascii 0 (ofDocument source document)

end Sidecar

end ViewMarkup
