import ViewMarkup.Document.Basic
import ViewMarkup.React.Markup
import ViewMarkup.Resolver

namespace ViewMarkup.React

/-- The choices that shape a generated module. -/
structure Options where
  indentWidth : Int
  runtimeModule : Text
  routerModule : Text
  authToken : Text
  deriving DecidableEq, Repr

/-- The default choices. -/
def Options.default : Options where
  indentWidth := 2
  runtimeModule := "react"
  routerModule := "react-router-dom"
  authToken := defaultAuthToken

/-- The tags that an expression opens: every `<` with an ASCII capital behind it. -/
def openedTags : Text → List Text
  | [] => []
  | c :: rest =>
    match c, rest with
    | '<', head :: tail =>
      if head.isUpper then (head :: tail.takeWhile isWord) :: openedTags rest else openedTags rest
    | _, _ => openedTags rest

/-- The components that a node itself refers to: its name, and the tags in its `element` prop. -/
def referredNames : Content → List Text
  | .component name props =>
    name :: match props.lookup "element".toList with
      | some (.expression raw) => openedTags raw
      | _ => []
  | _ => []

/-- The components that a forest refers to, each once, in the order of their first use. -/
def componentNames (nodes : List Node) : List Text :=
  ((Node.preorderForest nodes).flatMap fun node => referredNames node.content).eraseDups

/-- The name of the function when the signature gives none. -/
def defaultName : Text := "App"

/-- The name of the function: the name of the signature with an underscore for every other character,
without underscores around it. -/
def identifier (name : Text) : Text :=
  let replaced := name.map fun c => if isWord c then c else '_'
  let stripped := ((replaced.dropWhile (· == '_')).reverse.dropWhile (· == '_')).reverse
  match stripped with
  | [] => defaultName
  | c :: rest => if isDigit c then defaultName else c :: rest

/-- The name of a parameter with an underscore for every character that is not ASCII. -/
def parameterName (name : Text) : Text :=
  name.map fun c => if c.isAlphanum || c == '_' then c else '_'

/-- The type of the props of a component. -/
def propsType (signature : Signature) (name unit : Text) : Text :=
  let fields := signature.parameters.map fun parameter =>
    unit ++ parameterName parameter.name ++ (if parameter.isOptional then "?" else "") ++ ": " ++
      parameter.type ++ ";"
  Text.join "\n" (["type " ++ name ++ "Props = \x7b"] ++ fields ++ ["\x7d;".toList])

/-- An import of several names. -/
def namedImport (names : List Text) (module : Text) : List Text :=
  match names with
  | [] => []
  | _ => ["import \x7b " ++ Text.join ", " names ++ " \x7d from '" ++ module ++ "';"]

/-- The import lines: components of other files, hoisted imports, the router and the hooks. -/
def importLines (names : List Text) (functionName : Text) (resolver : Resolver) (hoisted : List Text)
    (runtime : List Text) (runtimeModule routerModule : Text) : List Text :=
  let locals := names.filter fun name =>
    !isIntrinsic name && !resolver.isWellKnown name && name != functionName
  locals.map (fun name => "import " ++ name ++ " from '" ++ resolver.importPath name ++ "';") ++
    hoisted.eraseDups ++ namedImport (names.filter resolver.isWellKnown) routerModule ++
    namedImport runtime runtimeModule

/-- The line that opens the function. -/
def functionLine (signature : Signature) (name : Text) : Text :=
  match signature.parameters with
  | [] => "export default function " ++ name ++ "() \x7b"
  | parameters =>
    "export default function " ++ name ++ "(\x7b " ++
      Text.join ", " (parameters.map fun parameter => parameterName parameter.name) ++
      " \x7d: " ++ name ++ "Props) \x7b"

/-- The lines of a block inside the function; an empty line stays empty. -/
def blockLines (unit block : Text) : List Text :=
  (Text.split '\n' block).map fun line => if line = [] then [] else unit ++ line

/-- The first line of every module. -/
def header : Text := "// AUTO-GENERATED by lunor"

/-- The lines of a module from its parts. -/
def moduleLines (unit : Text) (signature : Signature) (imports body : List Text) (emitted : Emitted) :
    List Text :=
  let name := identifier signature.name
  let blocks := emitted.declarations ++ emitted.functions
  let twice := Text.times unit 2
  [header] ++ imports ++ [[]] ++
    (if signature.parameters = [] then [] else [propsType signature name unit, []]) ++
    [functionLine signature name] ++ blocks.flatMap (blockLines unit) ++
    (if blocks = [] then [] else [[]]) ++
    [unit ++ "return (", twice ++ "<>"] ++ body ++ [twice ++ "</>", unit ++ ");", "\x7d", []]

/-- Generates the module of a document. -/
def generate (document : Document) (resolver : Resolver) (options : Options) : Except Failure Text :=
  let unit := Text.times " " options.indentWidth
  let signature := document.signature?.getD ⟨defaultName, []⟩
  match Emitted.empty.add (forestEffects ⟨unit, options.authToken⟩ document.nodes) with
  | (_, some failure) => .error failure
  | (emitted, none) =>
    let imports := importLines (componentNames document.nodes) (identifier signature.name) resolver
      document.imports emitted.runtime options.runtimeModule options.routerModule
    .ok (Text.join "\n"
      (moduleLines unit signature imports (forestMarkup unit 3 document.nodes) emitted))

end ViewMarkup.React
