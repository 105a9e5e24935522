import ViewMarkup.Line.Basic
import ViewMarkup.Text.Scan
import ViewMarkup.Value.Braced

namespace ViewMarkup

/-- The text before the last `c` and the text after it. -/
def cutLast? (c : Char) (t : Text) : Option (Text × Text) :=
  match Text.cut c t.reverse with
  | (after, some before) => some (before.reverse, after.reverse)
  | (_, none) => none

/-- The text before `style="css"` at the end of a trimmed line, and the style. The word `style` must
not be the end of a longer word. -/
def styleSuffix? (t : Text) : Option (Text × Text) := do
  let body ← Text.before? "\"" t
  let (before, css) ← cutLast? '"' body
  let before ← Text.before? "style=" before
  if before.getLast?.any isWord then none
  let content := Text.trimEnd before
  if Text.isOneLine content then return (content, css) else none

/-- A trimmed line without its style, and the style as an attribute. A line of nothing but a style
keeps it as text. -/
def splitStyle (t : Text) : Text × Fields Inline :=
  match styleSuffix? t with
  | some (content, css) =>
    if Text.trim content = [] then (t, []) else (Text.trim content, [("style", .text css)])
  | none => (t, [])

/-- The text between two equal marks, if there is any. -/
def between? (mark t : Text) : Option Text :=
  Text.after? mark t >>= Text.before? mark >>= Text.oneLine?

/-- The label and the target of `[label](target)`. -/
def linkParts? (t : Text) : Option (Text × Text) := do
  let rest ← Text.after? "[" t
  let (label, rest) := Text.cut ']' rest
  let rest ← Text.after? "(" (← rest)
  let (target, rest) := Text.cut ')' rest
  if target ≠ [] ∧ rest = some [] then return (label, target) else none

/-- The level and the text of a heading. -/
def heading? (t : Text) : Option (Nat × Text) := do
  let level := (t.takeWhile (· == '#')).length
  if level = 0 ∨ 6 < level then none
  let text ← Text.afterBlanks? (t.drop level) >>= Text.oneLine?
  return (level, text)

/-- The text of a list item. -/
def item? (t : Text) : Option Text :=
  Text.after? "-" t >>= Text.afterBlanks? >>= Text.oneLine?

/-- An element that holds one piece of text. -/
def emphasis (tag label : Text) (attributes : Fields Inline) : Node :=
  .mk (.element tag none attributes) none [.leaf (.text (.ofText label))]

/-- Reads prose: strong, emphasised, a link, an image, a heading, a list item, otherwise a paragraph,
or a division for a lone expression. An item outside an open list comes in a list of its own. -/
def prose? (line : Text) (inList : Bool) : Option Node :=
  let (t, style) := splitStyle (Text.trim line)
  if t = [] then none
  else if let some label := between? "**" t then some (emphasis "strong" label style)
  else if let some label := between? "*" t then some (emphasis "em" label style)
  else if let some (label, target) := linkParts? t then
    some (emphasis "a" label (Fields.put "href" (.ofText target) style))
  else if let some (label, target) := Text.after? "!" t >>= linkParts? then
    some (.leaf (.element "img" none
      (Fields.put "alt" (.ofText label) (Fields.put "src" (.ofText target) style))))
  else if let some (level, text) := heading? t then
    some (.leaf (.element ('h' :: Text.ofNat level) (some (.ofText text)) style))
  else if let some text := item? t then
    let item := Node.leaf (.element "li" (some (.ofText text)) style)
    some (if inList then item else .mk (.element "ul" none []) none [item])
  else
    let value := Inline.ofText t
    let tag : Text := match value with
      | .expression _ => "div"
      | .text _ => "p"
    some (.leaf (.element tag (some value) style))

/-- Reads a line as prose. -/
def SourceLine.prose? (line : SourceLine) : Option Reading :=
  (ViewMarkup.prose? line.trimmed line.inList).map .ofNode

end ViewMarkup
