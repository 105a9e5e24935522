import Mathlib.Data.List.Infix
import ViewMarkup.Proofs.Text.Pieces
import ViewMarkup.Signature

namespace ViewMarkup

namespace ParameterEntry

/-- The column and the text of an entry. -/
def piece (entry : ParameterEntry) : Int × Text :=
  (entry.start, entry.text)

theorem pieces_ofPiece (base : Nat) (reversed : Text) :
    Text.Pieces base reversed.reverse ((ofPiece reversed (base + reversed.length)).map piece) := by
  unfold ofPiece
  dsimp only
  split
  · exact .nil _ _
  · rename_i hblank
    have hstart : base + reversed.length - reversed.reverse.length + Text.indent reversed.reverse =
        base + Text.indent reversed.reverse := by
      rw [List.length_reverse]
      omega
    rw [hstart]
    exact Text.Pieces.singleton base hblank (Text.trim_prefix_drop reversed.reverse)

/-- The piece so far and the rest of the list are one text, which starts where the piece starts. -/
theorem pieces_scan (base depth : Nat) (reversed rest : Text) :
    Text.Pieces base (reversed.reverse ++ rest)
      ((scan (base + reversed.length) depth reversed rest).map piece) := by
  induction rest generalizing base depth reversed with
  | nil =>
    rw [scan, List.append_nil]
    split
    · exact pieces_ofPiece base reversed
    · exact .nil _ _
  | cons c rest ih =>
    rw [scan]
    split
    · rw [List.map_append]
      refine (pieces_ofPiece base reversed).append c ?_
      simpa using ih (base + reversed.length + 1) 0 []
    · simpa [Nat.add_assoc] using ih base (depthAfter depth c) (c :: reversed)

theorem pieces_split (t : Text) : Text.Pieces 0 t ((split t).map piece) :=
  pieces_scan 0 0 [] t

end ParameterEntry

/-- A signature is a name and a parameter list in parentheses. -/
theorem Signature.eq_of_parts? {t name parameters : Text} (hparts : parts? t = some (name, parameters)) :
    t = name ++ '(' :: (parameters ++ [')']) := by
  unfold parts? at hparts
  split at hparts
  · cases hparts
  · split at hparts
    · rename_i rest hrest
      split at hparts
      · rename_i hlast
        cases hparts
        have hend : rest.dropLast ++ [')'] = rest := List.dropLast_append_getLast? ')' hlast.1
        rw [hend, ← hrest]
        exact List.prefix_append_drop (List.takeWhile_prefix isWord)
      · cases hparts
    · cases hparts

end ViewMarkup
