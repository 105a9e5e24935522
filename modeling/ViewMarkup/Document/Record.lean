import ViewMarkup.Sidecar

namespace ViewMarkup

/-- A span as JSON. -/
def Span.toJson (span : Span) : Json :=
  .object [Json.member "start_line" (.int span.startLine), Json.member "start_column" (.int span.startColumn),
    Json.member "end_line" (.int span.endLine), Json.member "end_column" (.int span.endColumn)]

/-- An expression as JSON: a node without children and without a span. -/
def expressionJson (raw : Text) : Json :=
  .object [Json.member "children" (.array []), Json.member "span" .null, Json.member "kind" (.string "Expression"),
    Json.member "raw" (.string raw)]

/-- Text or an expression as JSON. -/
def Inline.toJson : Inline → Json
  | .expression raw => expressionJson raw
  | .text value => .string value

/-- A literal or an expression as JSON. -/
def Value.toJson : Value → Json
  | .expression raw => expressionJson raw
  | .literal value => value

/-- Named fields as JSON. -/
def Fields.toJson {α : Type} (item : α → Json) (fields : Fields α) : Json :=
  .object (fields.map fun (name, value) => (name, item value))

/-- The members that a kind of content has of its own. -/
def Content.members : Content → List (Text × Json)
  | .element tag value? attributes =>
    [Json.member "tag" (.string tag), Json.member "value" ((value?.map Inline.toJson).getD .null),
     Json.member "attributes" (attributes.toJson Inline.toJson)]
  | .component name props => [Json.member "name" (.string name), Json.member "props" (props.toJson Value.toJson)]
  | .data name value | .state name value =>
    [Json.member "name" (.string name), Json.member "value" value.toJson]
  | .loop item collection =>
    [Json.member "loop_variable" (.string item), Json.member "collection_expression" (.string collection)]
  | .guard condition => [Json.member "condition_expression" (.string condition)]
  | .fetch request =>
    [Json.member "result_variable" (.string request.result),
     Json.member "initial_value_expression" (.string request.seed),
     Json.member "url" request.url.toJson, Json.member "method" (.string request.method.name),
     Json.member "headers" (request.headers.toJson .string),
     Json.member "body" ((request.body?.map .string).getD .null)]
  | .script signature body =>
    [Json.member "signature" (.string signature), Json.member "body_lines" (.array (body.map .string))]
  | .comment remark => [Json.member "text" (.string remark)]
  | .text value => [Json.member "value" value.toJson]
  | .expression raw => [Json.member "raw" (.string raw)]
  | .unknown => []

mutual

/-- A node as JSON: its children first, then its span, its kind and its own members. -/
def Node.toJson : Node → Json
  | .mk content span? children =>
    .object ([Json.member "children" (.array (Node.forestJson children)),
      Json.member "span" ((span?.map Span.toJson).getD .null), Json.member "kind" (.string content.kind)] ++
      content.members)

/-- Nodes as JSON. -/
def Node.forestJson : List Node → List Json
  | [] => []
  | node :: nodes => node.toJson :: Node.forestJson nodes

end

namespace Document

/-- A document as JSON. -/
def toJson (document : Document) : Json :=
  .object [Json.member "ast" (.array (Node.forestJson document.nodes)),
    Json.member "component" document.signatureJson,
    Json.member "diagnostics" (.array (document.diagnostics.map Diagnostic.toJson)),
    Json.member "imports" (.array (document.imports.map .string))]

/-- Numbers have the fewest digits that read back, positional from 0.00001 up to sixteen digits before
the point, and a bare exponent otherwise. -/
def recordNumber : DecimalLayout where
  pointAbove := -5
  pointUpTo := 16
  exponentPlus := []
  exponentWidth := 1
  undefined := "null"
  infinite := "null"

/-- The style of the record of a document. Numbers that are not finite are null. -/
def recordStyle : JsonStyle where
  plain _ := true
  number x := if x.isFinite then recordNumber.write x else "null"

/-- The record of a document. -/
def record (document : Document) : Text :=
  Json.writeIndented recordStyle 0 document.toJson

end Document

end ViewMarkup
