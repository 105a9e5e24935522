import ViewMarkup.Proofs.Node.Preorder
import ViewMarkup.React.Markup

namespace ViewMarkup

theorem Text.mem_of_mem_times {t : Text} {count : Int} {c : Char} (hc : c ∈ times t count) : c ∈ t := by
  obtain ⟨piece, hpiece, hmem⟩ := List.mem_flatten.mp hc
  exact List.eq_of_mem_replicate hpiece ▸ hmem

/-- The pieces behind the first one are joined to it. -/
theorem Text.join_cons (separator first : Text) (pieces : List Text) :
    join separator (first :: pieces) = first ++ pieces.flatMap (separator ++ ·) := by
  induction pieces generalizing first with
  | nil => simp [join]
  | cons piece pieces ih =>
    rw [join, List.intercalate_cons_cons, ← join, ih, List.flatMap_cons]
    simp only [List.append_assoc]

namespace React

/-- A line without its indentation, and how many levels it is below its node. -/
structure MarkupLine where
  depth : Nat
  text : Text

namespace MarkupLine

def deeper (line : MarkupLine) : MarkupLine :=
  { line with depth := line.depth + 1 }

def print (unit : Text) (level : Int) (line : MarkupLine) : Text :=
  pad unit (level + line.depth) ++ line.text

theorem print_deeper (unit : Text) (level : Int) (line : MarkupLine) :
    line.deeper.print unit level = line.print unit (level + 1) := by
  have hlevel : level + ((line.depth + 1 : Nat) : Int) = level + 1 + line.depth := by omega
  rw [print, print, deeper, hlevel]

theorem map_print_deeper (unit : Text) (level : Int) (lines : List MarkupLine) :
    (lines.map deeper).map (print unit level) = lines.map (print unit (level + 1)) := by
  rw [List.map_map]
  exact List.map_congr_left fun line _ => line.print_deeper unit level

theorem print_zero (unit : Text) (level : Int) (text : Text) :
    print unit level ⟨0, text⟩ = pad unit level ++ text := by
  rw [print, Int.natCast_zero, Int.add_zero]

end MarkupLine

/-- The props of a component, as they stand behind its name. -/
def propList (props : Fields Value) : Text :=
  props.flatMap fun field => " " ++ field.1 ++ "=" ++ propValue field.2

/-- The line in front of the lines below a node. -/
def opening : Content → Text
  | .element tag _ attributes => "<" ++ tag ++ attributeList attributes ++ ">"
  | .component name props => "<" ++ name ++ propList props ++ ">"
  | .loop item collection =>
    "\x7b" ++ collection ++ ".map((" ++ item ++ ", " ++ item ++ "Index" ++ ") => ("
  | .guard condition => "\x7b" ++ condition ++ " && ("
  | _ => []

/-- The line behind the lines below a node. -/
def closing : Content → Text
  | .element tag _ _ => "</" ++ tag ++ ">"
  | .component name _ => "</" ++ name ++ ">"
  | .loop .. => "))\x7d"
  | .guard _ => ")\x7d"
  | _ => []

/-- Lines between an opening and a closing line. -/
def between (first last : Text) (inner : List MarkupLine) : List MarkupLine :=
  [⟨0, first⟩] ++ inner.map MarkupLine.deeper ++ [⟨0, last⟩]

mutual

/-- The lines of a node. -/
def markupLines : Node → List MarkupLine
  | .mk (.element tag value? attributes) _ children =>
    let value := value?.elim [] inlineText
    if tag = "img".toList then [⟨0, "<" ++ tag ++ attributeList attributes ++ " />"⟩]
    else if children.all (fun child => (plainText? child).isSome) then
      [⟨0, opening (.element tag value? attributes) ++ value ++ (children.filterMap plainText?).flatten ++
        closing (.element tag value? attributes)⟩]
    else
      between (opening (.element tag value? attributes)) (closing (.element tag value? attributes))
        ((if value = [] then [] else [⟨0, value⟩]) ++ forestLines children)
  | .mk (.component name props) _ children =>
    match forestLines children with
    | [] => [⟨0, "<" ++ name ++ propList props ++ " />"⟩]
    | inner => between (opening (.component name props)) (closing (.component name props)) inner
  | .mk (.loop item collection) _ children =>
    between (opening (.loop item collection)) (closing (.loop item collection))
      (between ("<Fragment key=" ++ inBraces (item ++ "Index") ++ ">") "</Fragment>" (forestLines children))
  | .mk (.guard condition) _ children =>
    between (opening (.guard condition)) (closing (.guard condition)) (between "<>" "</>" (forestLines children))
  | .mk (.comment text) _ _ => [⟨0, "\x7b/* " ++ Text.replace "*/" "*\\/" text ++ " */\x7d"⟩]
  | .mk (.text value) _ _ => [⟨0, inlineText value⟩]
  | .mk (.expression raw) _ _ => [⟨0, inBraces raw⟩]
  | _ => []

/-- The lines of the nodes of a forest. -/
def forestLines : List Node → List MarkupLine
  | [] => []
  | node :: nodes => markupLines node ++ forestLines nodes

end

theorem componentOpening_eq (name : Text) (props : Fields Value) :
    componentOpening name props = "<" ++ name ++ propList props := by
  cases props with
  | nil => exact (List.append_nil _).symm
  | cons field props =>
    unfold componentOpening
    rw [List.map_cons, Text.join_cons, List.flatMap_map]
    split
    · rename_i hnil
      simp at hnil
    · simp only [propList, List.flatMap_cons, List.append_assoc]

theorem map_print_between (unit : Text) (level : Int) (first last : Text) (inner : List MarkupLine) :
    (between first last inner).map (MarkupLine.print unit level) =
      [pad unit level ++ first] ++ inner.map (MarkupLine.print unit (level + 1)) ++ [pad unit level ++ last] := by
  simp only [between, List.map_append, List.map_singleton, MarkupLine.map_print_deeper, MarkupLine.print_zero]

theorem forestLines_eq_flatMap (nodes : List Node) : forestLines nodes = nodes.flatMap markupLines := by
  induction nodes with
  | nil => rfl
  | cons node nodes ih => rw [forestLines, ih, List.flatMap_cons]

section

variable {unit : Text} (hunit : unit ≠ [])

include hunit

theorem pad_ne_nil {level : Int} (hlevel : 1 ≤ level) : pad unit level ≠ [] := by
  obtain ⟨count, hcount⟩ : ∃ count, level.toNat = count + 1 := ⟨level.toNat - 1, by omega⟩
  rw [pad, Text.times, hcount, List.replicate_succ, List.flatten_cons]
  exact List.append_ne_nil_of_left_ne_nil hunit _

theorem print_ne_nil {level : Int} (hlevel : 1 ≤ level) (line : MarkupLine) : line.print unit level ≠ [] :=
  List.append_ne_nil_of_left_ne_nil (pad_ne_nil hunit (by omega)) _

/-- No line of code is empty, so nothing is left out for being empty but what has no lines. -/
theorem isEmptyCode_print {level : Int} (hlevel : 1 ≤ level) (lines : List MarkupLine) :
    isEmptyCode (lines.map (MarkupLine.print unit level)) = lines.isEmpty := by
  cases lines with
  | nil => rfl
  | cons line lines => simp [isEmptyCode, print_ne_nil hunit hlevel line]

theorem forestMarkup_eq_of_forall {level : Int} (hlevel : 1 ≤ level) {nodes : List Node}
    (hnodes : ∀ node ∈ nodes, markup unit level node = (markupLines node).map (MarkupLine.print unit level)) :
    forestMarkup unit level nodes = (forestLines nodes).map (MarkupLine.print unit level) := by
  induction nodes with
  | nil => rfl
  | cons node nodes ih =>
    obtain ⟨hnode, hrest⟩ := List.forall_mem_cons.mp hnodes
    rw [forestMarkup, forestLines, List.map_append, ih hrest, hnode, isEmptyCode_print hunit hlevel]
    congr 1
    cases markupLines node <;> rfl

/-- The markup of a node is its lines, each with its indentation. -/
theorem markup_eq_print (node : Node) {level : Int} (hlevel : 1 ≤ level) :
    markup unit level node = (markupLines node).map (MarkupLine.print unit level) := by
  induction node using Node.induction generalizing level with
  | mk content span? children ih =>
    have hforest {level : Int} (hlevel : 1 ≤ level) :
        forestMarkup unit level children = (forestLines children).map (MarkupLine.print unit level) :=
      forestMarkup_eq_of_forall hunit hlevel fun child hchild => ih child hchild hlevel
    have hlevel' : level + 1 + 1 = level + 2 := by omega
    cases content with
    | element tag value? attributes =>
      rw [markup, markupLines]
      dsimp only [opening, closing]
      split
      · simp only [List.map_singleton, MarkupLine.print_zero, List.append_assoc]
      split
      · simp only [List.map_singleton, MarkupLine.print_zero, List.append_assoc]
      · rw [map_print_between, hforest (by omega), List.map_append]
        split <;> simp only [List.map_singleton, List.map_nil, MarkupLine.print_zero, List.append_assoc]
    | component name props =>
      rw [markup, hforest (by omega), markupLines, componentOpening_eq]
      cases forestLines children with
      | nil => simp only [List.map_nil, List.map_singleton, MarkupLine.print_zero, List.append_assoc]
      | cons line lines =>
        rw [map_print_between]
        dsimp only [opening, closing]
        simp only [List.map_cons, List.append_assoc]
    | loop | guard =>
      rw [markup, hforest (by omega), markupLines, map_print_between, map_print_between]
      dsimp only [opening, closing]
      simp only [List.append_assoc, List.cons_append, List.nil_append, hlevel']
    | comment | text | expression =>
      rw [markup, markupLines]
      simp only [List.map_singleton, MarkupLine.print_zero, List.append_assoc]
    | _ => rfl

theorem forestMarkup_eq_print (nodes : List Node) {level : Int} (hlevel : 1 ≤ level) :
    forestMarkup unit level nodes = (forestLines nodes).map (MarkupLine.print unit level) :=
  forestMarkup_eq_of_forall hunit hlevel fun node _ => markup_eq_print hunit node hlevel

end

end React

end ViewMarkup
