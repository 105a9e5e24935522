import ViewMarkup.Value.Basic

namespace ViewMarkup

/-- The source range of a node and of what is attached to it; lines and columns count from zero. -/
structure Span where
  startLine : Int
  startColumn : Int
  endLine : Int
  endColumn : Int
  deriving DecidableEq, Repr

/-- The request methods of a fetch. -/
inductive Method where
  | get
  | post
  | put
  | delete
  deriving DecidableEq, Repr

namespace Method

/-- Every method. -/
def all : List Method := [get, post, put, delete]

/-- The name of a method. -/
def name : Method → Text
  | get => "GET"
  | post => "POST"
  | put => "PUT"
  | delete => "DELETE"

/-- The method with a name. -/
def ofName? (t : Text) : Option Method :=
  all.find? fun method => method.name == t

end Method

/-- A request whose answer becomes a state variable. -/
structure Fetch where
  /-- The state variable that takes the answer. -/
  result : Text
  /-- The type or initial value written in parentheses. -/
  seed : Text
  url : Inline
  method : Method
  headers : Fields Text
  body? : Option Text
  deriving DecidableEq, Repr

/-- What a node is. -/
inductive Content where
  /-- Prose: a heading, paragraph, list, list item, image, link or emphasis. -/
  | element (tag : Text) (value? : Option Inline) (attributes : Fields Inline)
  /-- Another component with its props. -/
  | component (name : Text) (props : Fields Value)
  /-- A constant. -/
  | data (name : Text) (value : Value)
  /-- A state variable. -/
  | state (name : Text) (value : Value)
  /-- Content for each item of a collection. -/
  | loop (item collection : Text)
  /-- Content under a condition. -/
  | guard (condition : Text)
  /-- A request. -/
  | fetch (fetch : Fetch)
  /-- Lines of script, inside a function if there is a signature. -/
  | script (signature : Text) (body : List Text)
  /-- A remark. -/
  | comment (text : Text)
  /-- Text inside emphasis or a link. -/
  | text (value : Inline)
  /-- An expression that stands by itself. -/
  | expression (raw : Text)
  /-- A node of no kind, for which nothing can be generated. -/
  | unknown
  deriving Repr

namespace Content

/-- The name of a kind of content. -/
def kind : Content → Text
  | element .. => "Markdown"
  | component .. => "Component"
  | data .. => "Data"
  | state .. => "State"
  | loop .. => "For"
  | guard .. => "If"
  | fetch .. => "Fetch"
  | script .. => "InlineScript"
  | comment .. => "Comment"
  | text .. => "Text"
  | expression .. => "Expression"
  | unknown => "Base"

/-- A list of items. -/
def isList : Content → Bool
  | element tag .. => tag == "ul".toList
  | _ => false

/-- An item of a list. -/
def isItem : Content → Bool
  | element tag .. => tag == "li".toList
  | _ => false

/-- Lines of script. -/
def isScript : Content → Bool
  | script .. => true
  | _ => false

/-- Content under which deeper lines are attached. -/
def isContainer : Content → Bool
  | element tag .. => tag == "ul".toList
  | component .. | loop .. | guard .. | script .. => true
  | _ => false

end Content

/-- A node of a document. -/
inductive Node where
  | mk (content : Content) (span? : Option Span) (children : List Node)
  deriving Repr

namespace Node

/-- A node without place and without children. -/
def leaf (content : Content) : Node :=
  mk content none []

/-- What the node is. -/
def content : Node → Content
  | mk content _ _ => content

/-- The source range of the node, if it was read from a source. -/
def span? : Node → Option Span
  | mk _ span? _ => span?

/-- The nodes below the node. -/
def children : Node → List Node
  | mk _ _ children => children

/-- The node with another place. -/
def withSpan (span? : Option Span) : Node → Node
  | mk content _ children => mk content span? children

mutual

/-- The node and all nodes below it, each before the nodes below it. -/
def preorder : Node → List Node
  | mk content span? children => mk content span? children :: preorderForest children

/-- The nodes of a forest, each before the nodes below it. -/
def preorderForest : List Node → List Node
  | [] => []
  | node :: nodes => preorder node ++ preorderForest nodes

end

end Node

end ViewMarkup
