import ViewMarkup.Proofs.Document.Growth
import ViewMarkup.Proofs.Document.Renumber

namespace ViewMarkup

theorem Signature.faults_renumber (ρ : Int → Int) (source : Text) (line : Int) :
    (read source line).2.map (Diagnostic.renumber ρ) = (read source (ρ line)).2 := by
  have hline := faults_moveTo source line line
  rw [hline, List.map_map, faults_moveTo source line (ρ line)]
  rfl

namespace Document

/-- The document on renumbered lines. -/
def renumber (ρ : Int → Int) (document : Document) : Document :=
  { document with
    nodes := document.nodes.map (Node.renumber ρ)
    diagnostics := document.diagnostics.map (Diagnostic.renumber ρ) }

/-- The number that a line has after a line was put in before line `k`. -/
def makeRoom (k : Nat) (line : Int) : Int :=
  if line < k then line else line + 1

theorem makeRoom_of_lt {k : Nat} {line : Int} (hline : line < k) : makeRoom k line = line :=
  if_pos hline

theorem makeRoom_of_le {k : Nat} {line : Int} (hline : k ≤ line) : makeRoom k line = line + 1 :=
  if_neg (by omega)

/-- A draft whose lines are renumbered from the signature on. -/
theorem draft_renumber (ρ : Int → Int) (first : Text) (body : List Text) (hfirst : ρ 0 = 0)
    (hnext : ∀ l : Int, 1 ≤ l → l + 1 < 1 + body.length → ρ (l + 1) = ρ l + 1) :
    (draft first body).renumber ρ =
      Draft.run { Draft.empty with diagnostics := (Signature.read first 0).2 } (ρ 1) body := by
  have hfaults := Signature.faults_renumber ρ first 0
  rw [hfirst] at hfaults
  rw [draft, Draft.run_renumber ρ _ 1 body hnext]
  simp only [Draft.renumber, Draft.empty, List.map_nil, hfaults]

/-- Lines before the new one keep their numbers. -/
theorem draft_makeRoom (first : Text) (body : List Text) :
    (draft first body).renumber (makeRoom (body.length + 1)) = draft first body := by
  have hnext : ∀ l : Int, 1 ≤ l → l + 1 < 1 + body.length →
      makeRoom (body.length + 1) (l + 1) = makeRoom (body.length + 1) l + 1 := by
    intro l _ hl
    rw [makeRoom_of_lt (by omega), makeRoom_of_lt (by omega)]
  rw [draft_renumber _ first body (makeRoom_of_lt (by omega)) hnext]
  cases body with
  | nil => rfl
  | cons raw body =>
    rw [makeRoom_of_lt (by simp only [List.length_cons]; omega)]
    rfl

theorem draft_insert_blank (first : Text) (earlier later : List Text) {blank : Text}
    (hblank : Text.trim blank = []) :
    draft first (earlier ++ blank :: later) =
      (draft first (earlier ++ later)).renumber (makeRoom (earlier.length + 1)) := by
  have hnext : ∀ l : Int, 1 + earlier.length ≤ l → l + 1 < 1 + earlier.length + later.length →
      makeRoom (earlier.length + 1) (l + 1) = makeRoom (earlier.length + 1) l + 1 := by
    intro l hl _
    rw [makeRoom_of_le (by omega), makeRoom_of_le (by omega)]
  have hlater := Draft.run_renumber _ (draft first earlier) (1 + earlier.length) later hnext
  rw [draft_makeRoom, makeRoom_of_le (by omega)] at hlater
  have hskip : (draft first earlier).step (1 + earlier.length) blank = draft first earlier :=
    (Draft.Step.blank hblank).eq
  rw [draft, Draft.run_append, Draft.run, ← draft, hskip, ← hlater, draft, draft, Draft.run_append]

/-- A blank line put in before line `k` below the signature, or behind the last line, adds one to every
line number from `k` on in spans and faults. Nothing else of the document changes. -/
theorem ofText_insert_blank {t u first blank : Text} {earlier later : List Text}
    (hlines : Text.lines t = first :: (earlier ++ later))
    (hinserted : Text.lines u = first :: (earlier ++ blank :: later))
    (hfirst : Text.trim first ≠ []) (hblank : Text.trim blank = []) :
    ofText u = (ofText t).renumber (makeRoom (earlier.length + 1)) := by
  rw [ofText_of_lines hlines hfirst, ofText_of_lines hinserted hfirst,
    draft_insert_blank first earlier later hblank, Draft.forest_renumber]
  rfl

/-- The new line is inside a script below an item, in front of a line with a fault. -/
theorem ofText_insert_blank_script :
    ofText "Page()\n- a\n  :js\n    go()\n \t\n    run()\n:Card x=" =
        (ofText "Page()\n- a\n  :js\n    go()\n    run()\n:Card x=").renumber (makeRoom 4) ∧
      (ofText "Page()\n- a\n  :js\n    go()\n \t\n    run()\n:Card x=").diagnostics =
        [.error .invalidProperty "Invalid property: x=" 6 6 8] := by
  have hlines : Text.lines "Page()\n- a\n  :js\n    go()\n    run()\n:Card x=" =
      "Page()".toList :: (["- a", "  :js", "    go()"].map String.toList ++
        ["    run()", ":Card x="].map String.toList) := by decide +kernel
  have hinserted : Text.lines "Page()\n- a\n  :js\n    go()\n \t\n    run()\n:Card x=" =
      "Page()".toList :: (["- a", "  :js", "    go()"].map String.toList ++
        " \t".toList :: ["    run()", ":Card x="].map String.toList) := by decide +kernel
  exact ⟨ofText_insert_blank hlines hinserted (by decide +kernel) (by decide +kernel), by decide +kernel⟩

end Document

end ViewMarkup
