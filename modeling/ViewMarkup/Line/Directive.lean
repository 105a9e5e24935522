import ViewMarkup.Line.Component
import ViewMarkup.Value.Braced

namespace ViewMarkup

/-- `:for item in collection`, or `:forEach`. -/
def loop? (t : Text) : Option Content := do
  let rest ← (Text.after? ":for" t >>= Text.afterBlanks?) <|>
    (Text.after? ":forEach" t >>= Text.afterBlanks?)
  let (item, rest) ← Text.word? rest
  let rest ← Text.afterBlanks? rest
  let rest ← Text.after? "in" rest
  let collection ← Text.afterBlanks? rest
  if collection ≠ [] ∧ collection.all (fun c => isWord c || c == '.') then
    return .loop item collection
  else none

/-- `:if condition`. A span in braces anywhere in the condition is taken as the whole condition. -/
def guard? (t : Text) : Option Content := do
  let rest ← Text.after? ":if" t
  let condition ← Text.afterBlanks? rest >>= Text.oneLine?
  return .guard ((firstSpan? condition).getD condition)

/-- The header that carries the token of an authorized fetch, with a placeholder for the token. -/
def authorization : Fields Text :=
  [("Authorization", "Bearer $\x7btoken\x7d")]

/-- What follows the seed of a fetch. -/
structure FetchTail where
  url : Text
  method : Method
  isAuthorized : Bool
  deriving DecidableEq, Repr

/-- A method, and the rest. -/
def method? (t : Text) : Option (Method × Text) :=
  Method.all.findSome? fun method => (Text.after? method.name t).map fun rest => (method, rest)

/-- `) from "url" METHOD`, or with `auth` behind it, up to the end of the line. -/
def FetchTail.ofText? (t : Text) : Option FetchTail := do
  let rest ← Text.after? ")" (Text.trimStart t)
  let rest ← Text.afterBlanks? rest
  let rest ← Text.after? "from" rest
  let rest ← Text.afterBlanks? rest
  let rest ← Text.after? "\"" rest
  let (url, rest) := Text.cut '"' rest
  let rest ← rest
  if url = [] then none
  let rest ← Text.afterBlanks? rest
  let (method, rest) ← method? rest
  if Text.trim rest = [] then return ⟨url, method, false⟩
  let rest ← Text.afterBlanks? rest
  let rest ← Text.after? "auth" rest
  if Text.trim rest = [] then return ⟨url, method, true⟩ else none

/-- The shortest non-empty start of the text, without a line feed, whose rest `tail?` accepts. -/
def shortest? {α : Type} (tail? : Text → Option α) : Text → Option (Text × α)
  | [] => none
  | c :: rest =>
    if c = '\n' then none
    else match tail? rest with
      | some tail => some ([c], tail)
      | none => (shortest? tail? rest).map fun (start, tail) => (c :: start, tail)

/-- The seed of a fetch and what follows it. Blanks in front of the seed are passed over,
as many as leave something to read. -/
def seeded? (t : Text) : Option (Text × FetchTail) :=
  let lead := Text.indent t
  (List.range (lead + 1)).findSome? fun kept => shortest? FetchTail.ofText? (t.drop (lead - kept))

/-- `:fetch variable(seed) from "url" METHOD`, or with `auth` behind it. -/
def fetchParts? (t : Text) : Option (Text × Text × FetchTail) := do
  let rest ← Text.after? ":fetch" t >>= Text.afterBlanks?
  let (result, rest) ← Text.word? rest
  let rest ← Text.after? "(" (Text.trimStart rest)
  let (seed, tail) ← seeded? rest
  return (result, seed, tail)

/-- Reads a fetch, and reports its parts as they are written. -/
def fetch? (t : Text) : Option Reading :=
  (fetchParts? t).map fun (result, seed, tail) =>
    { node? := some (.leaf (.fetch
        { result
          seed := Text.trim seed
          url := .ofText (Text.trim tail.url)
          method := tail.method
          headers := if tail.isAuthorized then authorization else []
          body? := none }))
      diagnostics := []
      log := [⟨.debug, .lines, "fetch directive: variable=" ++ result ++ " init=" ++ seed ++
        " url=" ++ tail.url ++ " method=" ++ tail.method.name⟩] }

/-- `:js`, or with the signature of a function behind it. -/
def script? (t : Text) : Option Content := do
  let rest ← Text.after? ":js" t
  if rest = [] then return .script [] []
  let signature ← Text.afterBlanks? rest >>= Text.oneLine?
  return .script signature []

/-- The words that never name a component. -/
def reserved : List Text :=
  ["data", "state", "for", "forEach", "if", "fetch", "js"].map String.toList

/-- Reads a directive. A malformed one is reported and dropped; it never becomes a component. -/
def SourceLine.directive? (line : SourceLine) : Option Reading :=
  let t := line.trimmed
  let ofContent (content? : Option Content) : Option Reading :=
    content?.map fun content => .ofNode (.leaf content)
  ofContent (loop? t) <|> ofContent (guard? t) <|> fetch? t <|> ofContent (script? t) <|>
    match componentParts? t with
    | some (name, _) =>
      if reserved.contains name then
        some (.dropped (.error .invalidDirective
          ("Malformed :" ++ name ++ " directive: " ++ t) line.number line.indent
          (line.indent + t.length)))
      else none
    | none => none

end ViewMarkup
