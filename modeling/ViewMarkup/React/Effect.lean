import ViewMarkup.Node.Basic
import ViewMarkup.React.Literal

namespace ViewMarkup.React

/-- The choices that shape generated code inside a component. -/
structure Format where
  /-- One level of indentation. -/
  unit : Text
  /-- The expression for the token of an authorized fetch. -/
  authToken : Text
  deriving DecidableEq, Repr

/-- The default expression for the token of an authorized fetch. -/
def defaultAuthToken : Text :=
  "localStorage.getItem(\"token\")"

/-- Why nothing can be generated. -/
inductive Failure where
  /-- A node of no kind. -/
  | unknownNode
  /-- A fetch with a blank address. -/
  | missingUrl (result : Text)
  /-- A fetch whose seed holds an integer that is too long to read. -/
  | longInteger (error : JsonError)
  deriving DecidableEq, Repr

/-- The wording of a failure. -/
def Failure.message : Failure → Text
  | unknownNode => "No renderer for node kind BaseNode"
  | missingUrl result => "Fetch node for '" ++ result ++ "' must have a URL"
  | longInteger error => error.message

/-- One addition to the component. -/
inductive Effect where
  | use (hook : Text)
  | declare (block : Text)
  | define (block : Text)
  | fail (failure : Failure)
  deriving DecidableEq, Repr

/-- A header value as a template, with the placeholder replaced by the token. -/
def headerValue (authToken value : Text) : Text :=
  let escaped := Text.replace "`" "\\`" value
  "`" ++ Text.replace "$\x7btoken\x7d" ("$" ++ inBraces authToken) escaped ++ "`"

/-- The headers of a fetch as an object literal. -/
def headerObject (authToken : Text) (headers : Fields Text) : Text :=
  match headers with
  | [] => "\x7b\x7d"
  | _ =>
    let entry (header : Text × Text) : Text :=
      Json.writeString .ascii header.1 ++ ": " ++ headerValue authToken header.2
    "\x7b " ++ Text.join ", " (headers.map entry) ++ " \x7d"

/-- The state variable of a fetch. -/
def fetchBinding (fetch : Fetch) (state : InitialState) : Text :=
  "const [" ++ fetch.result ++ ", " ++ setterName fetch.result ++ "] = useState" ++
    (match state.type? with
      | some type => "<" ++ type ++ ">"
      | none => []) ++
    "(" ++ state.initial ++ ");"

/-- The effect that sends the request and stores the answer. -/
def fetchEffect (format : Format) (fetch : Fetch) : Text :=
  let once := format.unit
  let twice := Text.times format.unit 2
  let url := match fetch.url with
    | .expression raw => raw
    | .text url => Json.writeString .ascii url
  let body : Text := match fetch.body? with
    | some (c :: rest) => "JSON.stringify(" ++ (c :: rest) ++ ")"
    | _ => "null"
  Text.join "\n" [
    "useEffect(() => \x7b",
    once ++ "fetch(" ++ url ++ ", \x7b",
    twice ++ "method: " ++ Json.writeString .ascii fetch.method.name ++ ",",
    twice ++ "headers: " ++ headerObject format.authToken fetch.headers ++ ",",
    twice ++ "body: " ++ body ++ ",",
    once ++ "\x7d)",
    twice ++ ".then((response) => response.json())",
    twice ++ ".then((result) => " ++ setterName fetch.result ++ "(result))",
    twice ++ ".catch((error) => console.error(\"Fetch error:\", error));",
    "\x7d, []);"]

/-- Whether the address of a fetch is blank; an expression never is. -/
def hasBlankUrl (fetch : Fetch) : Bool :=
  match fetch.url with
  | .expression _ => false
  | .text url => Text.trim url == []

/-- The effects of a fetch. -/
def fetchEffects (format : Format) (fetch : Fetch) : List Effect :=
  if hasBlankUrl fetch then [.fail (.missingUrl fetch.result)]
  else
    [.use "useState", .use "useEffect"] ++
      match InitialState.ofSeed fetch.seed with
      | .error error => [.fail (.longInteger error)]
      | .ok state => [.declare (fetchBinding fetch state), .declare (fetchEffect format fetch)]

/-- The lines of a script, inside a function if the script has a signature. -/
def scriptBlock (format : Format) (signature : Text) (body : List Text) : List Text :=
  if signature = [] then body
  else ["function " ++ signature ++ " \x7b"] ++ body.map (format.unit ++ ·) ++ [['\x7d']]

/-- The effects of a node itself, before those of the nodes below it. -/
def contentEffects (format : Format) : Content → List Effect
  | .data name value => [.declare ("const " ++ name ++ " = " ++ value.script ++ ";")]
  | .state name value =>
    [.use "useState",
     .declare ("const [" ++ name ++ ", " ++ setterName name ++ "] = useState(" ++ value.script ++ ");")]
  | .loop .. => [.use "Fragment"]
  | .fetch fetch => fetchEffects format fetch
  | .script signature body =>
    match scriptBlock format signature body with
    | [] => []
    | lines => [.define (Text.join "\n" lines)]
  | .unknown => [.fail .unknownNode]
  | _ => []

/-- Whether the nodes below a node are rendered. -/
def rendersChildren : Content → Bool
  | .element tag .. => tag != "img".toList
  | .component .. | .loop .. | .guard .. => true
  | _ => false

mutual

/-- The effects of a node and of the nodes rendered below it. -/
def effects (format : Format) : Node → List Effect
  | .mk content _ children =>
    contentEffects format content ++
      if rendersChildren content then forestEffects format children else []

/-- The effects of the nodes of a forest. -/
def forestEffects (format : Format) : List Node → List Effect
  | [] => []
  | node :: nodes => effects format node ++ forestEffects format nodes

end

/-- What has been added to the component so far; each hook is imported once. -/
structure Emitted where
  runtime : List Text
  declarations : List Text
  functions : List Text
  deriving DecidableEq, Repr

namespace Emitted

/-- Nothing has been added. -/
def empty : Emitted := ⟨[], [], []⟩

/-- Adds effects up to the first failure. -/
def add (emitted : Emitted) : List Effect → Emitted × Option Failure
  | [] => (emitted, none)
  | .use hook :: effects =>
    let runtime :=
      if emitted.runtime.contains hook then emitted.runtime else emitted.runtime ++ [hook]
    add { emitted with runtime } effects
  | .declare block :: effects =>
    add { emitted with declarations := emitted.declarations ++ [block] } effects
  | .define block :: effects => add { emitted with functions := emitted.functions ++ [block] } effects
  | .fail failure :: _ => (emitted, some failure)

end Emitted

end ViewMarkup.React
