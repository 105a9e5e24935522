import ViewMarkup.React.Effect

namespace ViewMarkup.React

/-- The indentation of a level. -/
def pad (unit : Text) (level : Int) : Text :=
  Text.times unit level

/-- Text or an expression between tags. -/
def inlineText : Inline → Text
  | .expression raw => inBraces raw
  | .text value => escapeText value

/-- An attribute; a text is quoted, except for a style, which becomes an object. -/
def attributeText (name : Text) (value : Inline) : Text :=
  let shown : Text := if name = "class".toList then "className" else name
  match value with
  | .expression raw => shown ++ "=" ++ inBraces raw
  | .text value =>
    if name = "style".toList then shown ++ "=" ++ styleObject value
    else shown ++ "=\"" ++ Text.replace "\"" "&quot;" value ++ "\""

/-- The attributes of an element, the style last. -/
def attributeList (attributes : Fields Inline) : Text :=
  let isStyle (field : Text × Inline) : Bool := field.1 == "style".toList
  (attributes.filter (!isStyle ·) ++ attributes.filter isStyle).flatMap fun (name, value) =>
    " " ++ attributeText name value

/-- The value of a prop: a text that needs no escape in quotes, anything else in braces. -/
def propValue : Value → Text
  | .expression raw => inBraces raw
  | .literal (.string value) =>
    if value.contains '"' || value.contains '\n' then inBraces (Json.write .unicode (.string value))
    else "\"" ++ value ++ "\""
  | .literal value => inBraces (Json.write .unicode value)

/-- The opening of a component's tag, without its end. -/
def componentOpening (name : Text) (props : Fields Value) : Text :=
  match Text.join " " (props.map fun (key, value) => key ++ "=" ++ propValue value) with
  | [] => "<" ++ name
  | list => "<" ++ name ++ " " ++ list

/-- The text of a node that is nothing but text. -/
def plainText? : Node → Option Text
  | .mk (.text value) _ _ => some (inlineText value)
  | _ => none

/-- Whether lines of code join to the empty text. -/
def isEmptyCode (code : List Text) : Bool :=
  code == [] || code == [[]]

mutual

/-- The lines of a node at a level. -/
def markup (unit : Text) (level : Int) : Node → List Text
  | .mk (.element tag value? attributes) _ children =>
    let opening := pad unit level ++ "<" ++ tag ++ attributeList attributes
    let value := value?.elim [] inlineText
    if tag = "img".toList then [opening ++ " />"]
    else if children.all (fun child => (plainText? child).isSome) then
      [opening ++ ">" ++ value ++ (children.filterMap plainText?).flatten ++ "</" ++ tag ++ ">"]
    else
      [opening ++ ">"] ++ (if value = [] then [] else [pad unit (level + 1) ++ value]) ++
        forestMarkup unit (level + 1) children ++ [pad unit level ++ "</" ++ tag ++ ">"]
  | .mk (.component name props) _ children =>
    let opening := pad unit level ++ componentOpening name props
    match forestMarkup unit (level + 1) children with
    | [] => [opening ++ " />"]
    | inner => [opening ++ ">"] ++ inner ++ [pad unit level ++ "</" ++ name ++ ">"]
  | .mk (.loop item collection) _ children =>
    let index := item ++ "Index"
    [pad unit level ++ "\x7b" ++ collection ++ ".map((" ++ item ++ ", " ++ index ++ ") => (",
     pad unit (level + 1) ++ "<Fragment key=" ++ inBraces index ++ ">"] ++
      forestMarkup unit (level + 2) children ++
      [pad unit (level + 1) ++ "</Fragment>", pad unit level ++ "))\x7d"]
  | .mk (.guard condition) _ children =>
    [pad unit level ++ "\x7b" ++ condition ++ " && (", pad unit (level + 1) ++ "<>"] ++
      forestMarkup unit (level + 2) children ++
      [pad unit (level + 1) ++ "</>", pad unit level ++ ")\x7d"]
  | .mk (.comment text) _ _ =>
    [pad unit level ++ "\x7b/* " ++ Text.replace "*/" "*\\/" text ++ " */\x7d"]
  | .mk (.text value) _ _ => [pad unit level ++ inlineText value]
  | .mk (.expression raw) _ _ => [pad unit level ++ inBraces raw]
  | _ => []

/-- The lines of the nodes of a forest, without code that is empty. -/
def forestMarkup (unit : Text) (level : Int) : List Node → List Text
  | [] => []
  | node :: nodes =>
    let code := markup unit level node
    (if isEmptyCode code then [] else code) ++ forestMarkup unit level nodes

end

/-- The code of a node. -/
def nodeCode (unit : Text) (level : Int) (node : Node) : Text :=
  Text.join "\n" (markup unit level node)

end ViewMarkup.React
