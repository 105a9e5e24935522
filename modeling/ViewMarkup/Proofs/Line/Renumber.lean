import ViewMarkup.Proofs.Line.Moved

namespace ViewMarkup

variable (ρ : Int → Int)

/-- A fault on renumbered lines. -/
def Diagnostic.renumber (fault : Diagnostic) : Diagnostic :=
  { fault with
    range := ⟨⟨ρ fault.range.start.line, fault.range.start.character⟩,
      ⟨ρ fault.range.stop.line, fault.range.stop.character⟩⟩ }

/-- What a line gives under another number. A node gets its place only later. -/
def Reading.renumber (reading : Reading) : Reading :=
  { reading with diagnostics := reading.diagnostics.map (Diagnostic.renumber ρ) }

namespace SourceLine

/-- The line under another number. -/
def renumber (line : SourceLine) : SourceLine :=
  { line with number := ρ line.number }

theorem read?_renumber (line : SourceLine) :
    (line.renumber ρ).read? = line.read?.map (Reading.renumber ρ) := by
  have hmoved : (line.renumber ρ).read? =
      line.read?.map (Reading.moveTo (ρ line.number) (line.indent - line.indent)) := read?_moveTo rfl rfl
  rw [hmoved, Int.sub_self]
  apply Option.map_congr
  intro reading hread
  have hfaults : reading.diagnostics.map (Diagnostic.moveTo (ρ line.number) 0) =
      reading.diagnostics.map (Diagnostic.renumber ρ) := by
    apply List.map_congr_left
    intro fault hfault
    rw [← moveTo_of_read? hread hfault]
    simp [Diagnostic.moveTo, Diagnostic.renumber]
  rw [Reading.moveTo, Reading.renumber, hfaults]

end SourceLine

end ViewMarkup
