import ViewMarkup.Yaml.Error
import ViewMarkup.Yaml.Place

namespace ViewMarkup.Yaml

/-- The header of a block: what becomes of the line ends at its end, and how far it is indented. -/
structure BlockHeader where
  /-- All line ends at the end stay, or none; one stays if nothing is said. -/
  keepsEnd? : Option Bool
  /-- The columns beyond the ones of the node that the block belongs to. -/
  indent? : Option Nat

/-- The sign that says what becomes of the line ends at the end. -/
def keepsEnd? : Text → Option Bool
  | '+' :: _ => some true
  | '-' :: _ => some false
  | _ => none

/-- The digit that says how far a block is indented. -/
def indentDigit? : Text → Option Nat
  | c :: _ => if c.isDigit then some (c.toNat - '0'.toNat) else none
  | [] => none

/-- Reads the header of a block: a sign and a digit in any order. The digit is not zero. -/
def blockHeader (place : Place) : Except YamlError (BlockHeader × Place) :=
  let found := match keepsEnd? place.rest, indentDigit? place.rest with
    | some keeps, _ =>
      match indentDigit? (place.rest.drop 1) with
      | some digit => ((⟨some keeps, some digit⟩ : BlockHeader), place.advance 2)
      | none => (⟨some keeps, none⟩, place.step)
    | none, some digit =>
      match keepsEnd? (place.rest.drop 1) with
      | some keeps => (⟨some keeps, some digit⟩, place.advance 2)
      | none => (⟨none, some digit⟩, place.step)
    | none, none => (⟨none, none⟩, place)
  if found.1.indent? = some 0 ∨ !startsSpace found.2.rest then .error .malformed else .ok found

/-- The blank lines at the start of a block: their ends, the largest column that a space reaches, and the
place after them. -/
def blockStart : Nat → Place → Text × Nat × Place
  | 0, place => ([], 0, place)
  | fuel + 1, place =>
    match place.rest with
    | [] => ([], 0, place)
    | c :: _ =>
      if isBreak c then
        let (breaks, column, after) := blockStart fuel place.step
        (breakChar c :: breaks, column, after)
      else if c = ' ' then
        let (breaks, column, after) := blockStart fuel place.step
        (breaks, max column place.step.column, after)
      else ([], 0, place)

/-- The place after the spaces up to a column. -/
def indented (indent : Nat) (place : Place) : Place :=
  place.advance ((place.rest.take (indent - place.column)).takeWhile (· == ' ')).length

/-- The ends of the empty lines in a block, and the place after the indentation of the next line. -/
def blockBreaks (indent : Nat) : Nat → Place → Text × Place
  | 0, place => ([], place)
  | fuel + 1, place =>
    let next := indented indent place
    match next.rest with
    | [] => ([], next)
    | c :: _ =>
      if isBreak c then
        let (breaks, after) := blockBreaks indent fuel next.step
        (breakChar c :: breaks, after)
      else ([], next)

/-- The lines of a block: their text without the line ends at the end of the block, the end of the last
line, the ends of the empty lines after it, and the place behind. The first text holds the lines so far,
the second the ends of empty lines before the place. -/
def blockLines (isFolded : Bool) (indent : Nat) :
    Nat → Text → Text → Place → Text × Text × Text × Place
  | 0, acc, breaks, place => (acc, [], breaks, place)
  | fuel + 1, acc, breaks, place =>
    if place.column ≠ indent ∨ place.rest = [] then (acc, [], breaks, place)
    else
      let line := place.rest.takeWhile fun c => !isBreak c
      let ended := place.advance line.length
      let lineEnd : Text := (ended.rest.take 1).map breakChar
      let (breaks', next) := blockBreaks indent (ended.rest.length + 1) ended.step
      let acc := acc ++ breaks ++ line
      if next.column ≠ indent ∨ next.rest = [] then (acc, lineEnd, breaks', next)
      else
        let isJoined := isFolded && lineEnd == ['\n'] && !line.head?.any isGap && !next.rest.head?.any isGap
        let link := if isJoined then (if breaks' = [] then [' '] else []) else lineEnd
        blockLines isFolded indent fuel (acc ++ link) breaks' next

/-- The text of a block, from the place after the indicator that starts it. `least` is the column that
the lines of the block have at least. -/
def blockText (isFolded : Bool) (least : Nat) (place : Place) : Except YamlError (Text × Place) :=
  match blockHeader place with
  | .error error => .error error
  | .ok (header, place) =>
    match place.afterLine? with
    | none => .error .malformed
    | some place =>
      let fuel := place.rest.length + 1
      let least := max least 1
      let (indent, breaks, place) := match header.indent? with
        | none =>
          let (breaks, column, after) := blockStart fuel place
          (max least column, breaks, after)
        | some digit =>
          let indent := least + digit - 1
          (indent, blockBreaks indent fuel place)
      let (text, lineEnd, breaks, after) := blockLines isFolded indent fuel [] breaks place
      .ok (text ++ (if header.keepsEnd? = some false then [] else lineEnd) ++
        (if header.keepsEnd? = some true then breaks else []), after)

end ViewMarkup.Yaml
