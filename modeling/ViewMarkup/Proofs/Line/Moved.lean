import ViewMarkup.Line.Reading
import ViewMarkup.Signature

namespace ViewMarkup

/-- The fault on the given line, and further to the right by an offset. -/
def Diagnostic.moveTo (line offset : Int) (fault : Diagnostic) : Diagnostic :=
  { fault with
    range := ⟨⟨line, fault.range.start.character + offset⟩, ⟨line, fault.range.stop.character + offset⟩⟩ }

/-- What a line gives at another place. A node gets its place only later. -/
def Reading.moveTo (line offset : Int) (reading : Reading) : Reading :=
  { reading with diagnostics := reading.diagnostics.map (Diagnostic.moveTo line offset) }

namespace PropertyToken

/-- The token further to the right. -/
def shift (offset : Int) (token : PropertyToken) : PropertyToken :=
  { token with start := token.start + offset }

theorem scan_shift (offset column : Int) (open? : Option PropertyToken) (shelter : Shelter) (t : Text) :
    scan (column + offset) (open?.map (shift offset)) shelter t =
      (scan column open? shelter t).map (shift offset) := by
  have hbegun : ((open?.map (shift offset)).toList.map fun token : PropertyToken =>
      { token with text := token.text.reverse }) =
      (open?.toList.map fun token : PropertyToken =>
        { token with text := token.text.reverse }).map (shift offset) := by
    cases open? <;> rfl
  induction t generalizing column open? shelter with
  | nil => exact hbegun
  | cons c rest ih =>
    have hcolumn : column + offset + 1 = column + 1 + offset := by omega
    unfold scan
    split
    · rw [hbegun, List.map_append, hcolumn]
      exact congrArg _ (ih (column + 1) none shelter rfl)
    · rw [hcolumn, ← ih (column + 1) _ _ (by rfl)]
      cases open? <;> rfl

theorem tokens_shift (offset column : Int) (t : Text) :
    tokens (column + offset) t = (tokens column t).map (shift offset) :=
  scan_shift offset column none Shelter.none t

end PropertyToken

namespace SourceLine

variable {line other : SourceLine}

theorem comment?_moveTo (htrimmed : other.trimmed = line.trimmed) :
    other.comment? = line.comment?.map (Reading.moveTo other.number (other.indent - line.indent)) := by
  rw [comment?, comment?, htrimmed, Option.map_map]
  rfl

theorem declaration?_moveTo (htrimmed : other.trimmed = line.trimmed) :
    other.declaration? =
      line.declaration?.map (Reading.moveTo other.number (other.indent - line.indent)) := by
  rw [declaration?, declaration?, htrimmed, Option.map_map]
  congr 1
  funext parts
  dsimp only [Function.comp_apply]
  cases Value.declared parts.value with
  | ok value => rfl
  | error error =>
    simp only [Reading.dropped, Reading.moveTo, List.map_cons, List.map_nil, Diagnostic.moveTo,
      Diagnostic.error, Range.onLine]
    congr 5 <;> omega

theorem directive?_moveTo (htrimmed : other.trimmed = line.trimmed) :
    other.directive? = line.directive?.map (Reading.moveTo other.number (other.indent - line.indent)) := by
  have hcontent (content? : Option Content) :
      (content?.map fun content => Reading.ofNode (.leaf content)).map
        (Reading.moveTo other.number (other.indent - line.indent)) =
        content?.map fun content => .ofNode (.leaf content) := by
    rw [Option.map_map]
    rfl
  have hfetch (t : Text) :
      (fetch? t).map (Reading.moveTo other.number (other.indent - line.indent)) = fetch? t := by
    rw [fetch?, Option.map_map]
    rfl
  unfold directive?
  rw [htrimmed]
  simp only [Option.orElse_eq_orElse, Option.orElse_eq_or, Option.map_or]
  rw [hcontent, hcontent, hcontent, hfetch]
  congr 4
  split
  · split
    · simp only [Option.map_some, Reading.dropped, Reading.moveTo, List.map_cons, List.map_nil,
        Diagnostic.moveTo, Diagnostic.error, Range.onLine]
      congr 6 <;> omega
    · rfl
  · rfl

/-- The tokens of a component move with its line. -/
theorem component?_moveTo (htrimmed : other.trimmed = line.trimmed) :
    other.component? = line.component?.map (Reading.moveTo other.number (other.indent - line.indent)) := by
  rw [component?, component?, htrimmed, Option.map_map]
  congr 1
  funext ⟨name, props⟩
  have hcolumn : other.indent + (line.trimmed.length - props.length) =
      line.indent + (line.trimmed.length - props.length) + (other.indent - line.indent) := by omega
  have hproperty (offset : Int) (token : PropertyToken) :
      (token.shift offset).property? = token.property? := rfl
  have hstop (offset : Int) (token : PropertyToken) : (token.shift offset).stop = token.stop + offset := by
    simp only [PropertyToken.stop, PropertyToken.shift]
    omega
  simp only [Function.comp_apply, Reading.moveTo, hcolumn, PropertyToken.tokens_shift]
  congr 1
  · simp only [List.filterMap_map, Function.comp_def, hproperty]
  · simp only [List.filter_map, List.map_map, Function.comp_def, hproperty, hstop]
    rfl

theorem prose?_moveTo (htrimmed : other.trimmed = line.trimmed) (hlist : other.inList = line.inList) :
    other.prose? = line.prose?.map (Reading.moveTo other.number (other.indent - line.indent)) := by
  rw [prose?, prose?, htrimmed, hlist, Option.map_map]
  rfl

/-- A line with the same trimmed text gives the same, with its faults where the line is. -/
theorem read?_moveTo (htrimmed : other.trimmed = line.trimmed) (hlist : other.inList = line.inList) :
    other.read? = line.read?.map (Reading.moveTo other.number (other.indent - line.indent)) := by
  simp only [read?, Option.orElse_eq_orElse, Option.orElse_eq_or, Option.map_or, comment?_moveTo htrimmed,
    declaration?_moveTo htrimmed, directive?_moveTo htrimmed, component?_moveTo htrimmed,
    prose?_moveTo htrimmed hlist]

/-- A line that gives a node without faults gives the same node wherever it stands. -/
theorem read?_eq_some_of_trimmed {node : Node} {log : List LogRecord}
    (hread : line.read? = some ⟨some node, [], log⟩) (htrimmed : line.trimmed = other.trimmed)
    (hlist : line.inList = other.inList) : other.read? = some ⟨some node, [], log⟩ := by
  rw [read?_moveTo htrimmed.symm hlist.symm, hread]
  rfl

/-- Every fault of a line is on that line. -/
theorem moveTo_of_read? {reading : Reading} (hread : line.read? = some reading) {fault : Diagnostic}
    (hfault : fault ∈ reading.diagnostics) : fault.moveTo line.number 0 = fault := by
  have hself : line.read? = line.read?.map (Reading.moveTo line.number (line.indent - line.indent)) :=
    read?_moveTo rfl rfl
  rw [Int.sub_self, hread, Option.map_some, Option.some.injEq] at hself
  have hfaults : reading.diagnostics.map (Diagnostic.moveTo line.number 0) = reading.diagnostics :=
    (congrArg Reading.diagnostics hself).symm
  rw [← List.map_id reading.diagnostics, List.map_map] at hfaults
  exact List.map_inj_left.mp hfaults fault hfault

end SourceLine

/-- The faults of a signature are on its line. -/
theorem Signature.faults_moveTo (source : Text) (line other : Int) :
    (read source other).2 = (read source line).2.map (Diagnostic.moveTo other 0) := by
  unfold read
  dsimp only
  cases parts? (Text.trim source) with
  | none => rfl
  | some parts =>
    dsimp only
    rw [List.filterMap_map, List.filterMap_map, List.map_filterMap]
    congr 1
    funext entry
    simp only [Function.comp_apply, readEntry]
    cases ParameterEntry.parameter? entry.text with
    | none => simp [Diagnostic.moveTo, Diagnostic.error, Range.onLine]
    | some parameter => rfl

end ViewMarkup
