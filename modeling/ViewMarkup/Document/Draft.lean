import ViewMarkup.Document.Frame
import ViewMarkup.Line.Reading

namespace ViewMarkup

/-- The span that ends where the given line ends. -/
def Span.extendTo (line column : Int) (span : Span) : Span :=
  { span with endLine := line, endColumn := column }

namespace Node

/-- The node with one more child. -/
def append (child : Node) : Node → Node
  | mk content span? children => mk content span? (children ++ [child])

/-- The node with its span extended to the end of a line. -/
def extendTo (line column : Int) : Node → Node
  | mk content span? children => mk content (span?.map (Span.extendTo line column)) children

/-- The node at a place, with its children at the same place. -/
def place (span : Span) : Node → Node
  | mk content _ children => mk content (some span) (children.map (withSpan (some span)))

end Node

/-- A container that can still grow. -/
structure OpenNode where
  content : Content
  span : Span
  children : List Node
  /-- The indent of the first line of a script, which becomes its left margin. -/
  margin? : Option Nat
  deriving Repr

namespace OpenNode

/-- The container as it stands. -/
def node (container : OpenNode) : Node :=
  .mk container.content (some container.span) container.children

/-- The container with its span extended to the end of a line. -/
def extendTo (line column : Int) (container : OpenNode) : OpenNode :=
  { container with span := container.span.extendTo line column }

/-- Whether a node belongs to the last child instead of the container itself, as anything but an item does below a
list. -/
def passesOn (container : OpenNode) (node : Node) : Bool :=
  container.content.isList && !container.children.isEmpty && !node.content.isItem

/-- A change of the last child. -/
def mapLast (change : Node → Node) : List Node → List Node
  | [] => []
  | [last] => [change last]
  | node :: nodes => node :: mapLast change nodes

/-- The container with a finished node inside. -/
def adopt (container : OpenNode) (node : Node) : OpenNode :=
  { container with
    children :=
      if container.passesOn node then mapLast (Node.append node) container.children
      else container.children ++ [node] }

/-- The container with room for a node on the given line: if the node belongs to the last child, the
last child reaches to the end of that line. -/
def touch (container : OpenNode) (node : Node) (line column : Int) : OpenNode :=
  if container.passesOn node then
    { container with children := mapLast (Node.extendTo line column) container.children }
  else container

end OpenNode

/-- A line of script that imports something, which is hoisted out of the script. -/
def isImport (t : Text) : Bool :=
  match Text.after? "import" t with
  | some (c :: rest) => isBlank c && (Text.oneLine? rest).isSome
  | _ => false

/-- What has been read so far. -/
structure Draft where
  roots : List Node
  /-- The open containers, innermost first. -/
  frames : List (Frame OpenNode)
  diagnostics : List Diagnostic
  imports : List Text
  log : List LogRecord
  deriving Repr

namespace Draft

/-- Nothing has been read. -/
def empty : Draft := ⟨[], [], [], [], []⟩

/-- Closes frames from the innermost on as long as `closes` holds. A closed container is adopted by the
frame around it, or becomes a root; `pending?` is the container closed last. -/
def settle (closes : Frame OpenNode → Bool) (roots : List Node) :
    Option Node → List (Frame OpenNode) → List Node × List (Frame OpenNode)
  | pending?, [] => (roots ++ pending?.toList, [])
  | pending?, frame :: frames =>
    let container := pending?.elim frame.item frame.item.adopt
    if closes frame then settle closes roots (some container.node) frames
    else (roots, { frame with item := container } :: frames)

/-- Closes what a line closes. -/
def close (draft : Draft) (indent : Int) (isItem : Bool) : Draft :=
  let (roots, frames) := settle (Frame.isClosedBy indent isItem) draft.roots none draft.frames
  { draft with roots, frames }

/-- Extends the span of every open container to the end of a line. -/
def extendTo (line column : Int) (draft : Draft) : Draft :=
  { draft with
    frames := draft.frames.map fun frame => { frame with item := frame.item.extendTo line column } }

/-- Takes over a line below a script: an import is hoisted, other lines keep their text from the left
margin on. -/
def capture (draft : Draft) (raw : Text) : Draft :=
  let text := Text.trim raw
  if isImport text then
    { draft with imports := if draft.imports.contains text then draft.imports else draft.imports ++ [text] }
  else match draft.frames with
    | [] => draft
    | frame :: frames =>
      match frame.item.content with
      | .script signature body =>
        let indent := Text.indent raw
        let margin := frame.item.margin?.getD indent
        let line := if margin ≤ indent then raw.drop margin else text
        let item := { frame.item with
          content := .script signature (body ++ [line])
          margin? := some margin }
        { draft with frames := { frame with item } :: frames }
      | _ => draft

/-- Attaches a node that was read from a line: a container is opened, any other node is finished. -/
def attach (draft : Draft) (node : Node) (line : Int) (raw : Text) : Draft :=
  let indent : Int := Text.indent raw
  let column : Int := raw.length
  let span : Span := ⟨line, indent, line, column⟩
  let node := node.place span
  let frames := match draft.frames with
    | [] => []
    | frame :: frames => { frame with item := frame.item.touch node line column } :: frames
  if node.content.isContainer then
    let opened : Frame OpenNode :=
      ⟨indent, node.content.isList, ⟨node.content, span, node.children, none⟩⟩
    { draft with frames := opened :: frames }
  else match frames with
    | [] => { draft with roots := draft.roots ++ [node] }
    | frame :: frames => { draft with frames := { frame with item := frame.item.adopt node } :: frames }

/-- Reads a line outside scripts. -/
def readLine (draft : Draft) (line : Int) (raw : Text) (isItem : Bool) : Draft :=
  let indent : Int := Text.indent raw
  match SourceLine.read? ⟨raw, line, indent, isItem && Frame.inList indent draft.frames⟩ with
  | none => draft
  | some reading =>
    let draft := { draft with
      diagnostics := draft.diagnostics ++ reading.diagnostics
      log := draft.log ++ reading.log }
    match reading.node? with
    | none => draft
    | some node => (draft.attach node line raw).extendTo line raw.length

/-- Reads a line. A blank line changes nothing. -/
def step (draft : Draft) (line : Int) (raw : Text) : Draft :=
  let text := Text.trim raw
  if text = [] then draft
  else
    let isItem := (item? text).isSome
    let draft := draft.close (Text.indent raw) isItem
    match draft.frames with
    | frame :: _ =>
      if frame.item.content.isScript then (draft.capture raw).extendTo line raw.length
      else draft.readLine line raw isItem
    | [] => draft.readLine line raw isItem

/-- Reads lines, the first of which has the given number. -/
def run (draft : Draft) (line : Int) : List Text → Draft
  | [] => draft
  | raw :: lines => run (draft.step line raw) (line + 1) lines

/-- The finished forest. -/
def forest (draft : Draft) : List Node :=
  (settle (fun _ => true) draft.roots none draft.frames).1

end Draft

end ViewMarkup
