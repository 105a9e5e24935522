import ViewMarkup.Proofs.Document.Scope
import ViewMarkup.Proofs.Line.Faults

namespace ViewMarkup

/-- The order of places in a text. -/
def Position.Before (place next : Position) : Prop :=
  place.line < next.line ∨ place.line = next.line ∧ place.character < next.character

/-- The faults of some lines from the first line on. -/
structure Surveyed (lines : List Text) (faults : List Diagnostic) : Prop where
  points : ∀ fault ∈ faults, ∃ l raw, lines[l]? = some raw ∧ fault.PointsAt l raw
  apart : faults.Pairwise fun fault next => fault.range.stop.Before next.range.start

namespace Surveyed

theorem nil : Surveyed [] [] :=
  ⟨by simp, .nil⟩

/-- The faults of one more line come last, as the line does. -/
theorem concat {lines : List Text} {raw : Text} {faults new : List Diagnostic} (hlines : Surveyed lines faults)
    (hnew : Reported lines.length raw new) : Surveyed (lines ++ [raw]) (faults ++ new) := by
  refine ⟨List.forall_mem_append.mpr ⟨fun fault hfault => ?_, fun fault hfault => ?_⟩,
    List.pairwise_append.mpr ⟨hlines.apart, hnew.apart.imp_of_mem ?_, fun fault hfault next hnext => ?_⟩⟩
  · obtain ⟨l, text, hget, hpoints⟩ := hlines.points fault hfault
    have hlt := (List.getElem?_eq_some_iff.mp hget).1
    exact ⟨l, text, by rw [List.getElem?_append_left hlt, hget], hpoints⟩
  · exact ⟨lines.length, raw, by simp, hnew.points fault hfault⟩
  · intro fault next hfault hnext hapart
    obtain ⟨start, stop, hrange, _⟩ := hnew.points fault hfault
    obtain ⟨start', stop', hrange', _⟩ := hnew.points next hnext
    right
    rw [hrange, hrange'] at hapart ⊢
    exact ⟨rfl, hapart⟩
  · obtain ⟨l, text, hget, start, stop, hrange, _⟩ := hlines.points fault hfault
    obtain ⟨start', stop', hrange', _⟩ := hnew.points next hnext
    have hlt := (List.getElem?_eq_some_iff.mp hget).1
    left
    rw [hrange, hrange']
    exact Int.ofNat_lt.mpr hlt

end Surveyed

theorem Draft.step_reported (draft : Draft) {line : Nat} (hline : 0 < line) (raw : Text) :
    ∃ faults, (draft.step line raw).diagnostics = draft.diagnostics ++ faults ∧ Reported line raw faults := by
  have hstep := step_cases draft line raw
  generalize draft.step line raw = next at hstep ⊢
  cases hstep with
  | blank => exact ⟨[], (List.append_nil _).symm, .nil _ _⟩
  | hoisted => exact ⟨[], (List.append_nil _).symm, .nil _ _⟩
  | captured => exact ⟨[], (List.append_nil _).symm, .nil _ _⟩
  | dropped hblank _ hread => exact ⟨_, rfl, SourceLine.read?_reported hblank hline hread⟩
  | attached hblank _ hread =>
    exact ⟨_, diagnostics_attach _ _ _ _, SourceLine.read?_reported hblank hline hread⟩

namespace Document

theorem draft_surveyed {first : Text} (hfirst : Text.trim first ≠ []) (body : List Text) :
    Surveyed (first :: body) (draft first body).diagnostics := by
  induction body using List.reverseRecOn with
  | nil => exact Surveyed.nil.concat (Signature.read_reported hfirst)
  | append_singleton body raw ih =>
    obtain ⟨faults, hfaults, hreported⟩ :=
      (draft first body).step_reported (Nat.succ_pos body.length) raw
    rw [draft_concat, List.length_cons, hfaults, ← List.cons_append]
    exact ih.concat hreported

theorem ofText_of_blank {t first : Text} {body : List Text} (hlines : Text.lines t = first :: body)
    (hfirst : Text.trim first = []) :
    ofText t = ⟨[], none, [.error .emptyFile "File must not be empty" 0 0 0], []⟩ := by
  simp [ofText, read, hlines, ofLines, hfirst]

/-- Each fault is on one line of the text and covers exactly what it reports of that line. -/
theorem diagnostics_cover (t : Text) :
    ∀ fault ∈ (ofText t).diagnostics, ∃ l raw, (Text.lines t)[l]? = some raw ∧ fault.PointsAt l raw := by
  obtain ⟨first, body, hlines⟩ := exists_lines t
  rw [hlines]
  by_cases hfirst : Text.trim first = []
  · rw [ofText_of_blank hlines hfirst]
    intro fault hfault
    obtain rfl := List.mem_singleton.mp hfault
    exact ⟨0, first, rfl, 0, 0, rfl, le_rfl, Nat.zero_le _, .blank hfirst, by simp [Diagnostic.error]⟩
  · rw [ofText_of_lines hlines hfirst]
    exact (draft_surveyed hfirst body).points

theorem diagnostics_cover_token :
    ∃ fault ∈ (ofText "Page()\n  :Card ok=1  bad ").diagnostics,
      ∃ l raw, (Text.lines "Page()\n  :Card ok=1  bad ")[l]? = some raw ∧ fault.PointsAt l raw :=
  have hmem : .error .invalidProperty "Invalid property: bad" 1 14 17 ∈
      (ofText "Page()\n  :Card ok=1  bad ").diagnostics := by decide +kernel
  ⟨_, hmem, diagnostics_cover _ _ hmem⟩

/-- The faults are in the order of the text, and each ends before the next one starts. The fault of an empty
file is alone in a document without anything else. -/
theorem diagnostics_ordered (t : Text) :
    ((ofText t).diagnostics.Pairwise fun fault next =>
      fault.range.start.Before next.range.start ∧ fault.range.stop.Before next.range.start) ∧
    ∀ fault ∈ (ofText t).diagnostics, fault.code = .emptyFile → ofText t = ⟨[], none, [fault], []⟩ := by
  obtain ⟨first, body, hlines⟩ := exists_lines t
  by_cases hfirst : Text.trim first = []
  · rw [ofText_of_blank hlines hfirst]
    refine ⟨List.pairwise_singleton _ _, fun fault hfault _ => ?_⟩
    rw [List.mem_singleton.mp hfault]
  · rw [ofText_of_lines hlines hfirst]
    have hsurveyed := draft_surveyed hfirst body
    refine ⟨hsurveyed.apart.imp_of_mem fun {fault next} hfault _ hapart => ⟨?_, hapart⟩, ?_⟩
    · obtain ⟨l, raw, _, start, stop, hrange, hle, _⟩ := hsurveyed.points fault hfault
      rw [hrange] at hapart ⊢
      simp only [Position.Before, Range.onLine] at hapart ⊢
      omega
    · intro fault hfault hcode
      obtain ⟨l, raw, hget, start, stop, _, _, _, hreports, _⟩ := hsurveyed.points fault hfault
      obtain ⟨rfl, hblank, _⟩ := hreports.of_emptyFile hcode
      cases hget
      exact absurd hblank hfirst

theorem diagnostics_ordered_blank :
    ∃ fault ∈ (ofText " \n:Card bad").diagnostics, fault.code = .emptyFile ∧
      ofText " \n:Card bad" = ⟨[], none, [fault], []⟩ :=
  have hmem : .error .emptyFile "File must not be empty" 0 0 0 ∈ (ofText " \n:Card bad").diagnostics := by
    decide +kernel
  ⟨_, hmem, rfl, (diagnostics_ordered _).2 _ hmem rfl⟩

end Document

end ViewMarkup
