import ViewMarkup.Proofs.Text.Pieces
import ViewMarkup.Property.Token

namespace ViewMarkup.PropertyToken

/-- The column and the text of a token. -/
def piece (token : PropertyToken) : Int × Text :=
  (token.start, token.text)

/-- What has been read of a token is the whole text so far. -/
theorem pieces_begun {open? : Option PropertyToken} (column : Int) (hopen : ∀ token ∈ open?, token.text ≠ []) :
    Text.Pieces (open?.elim column start) (open?.elim [] fun token => token.text.reverse)
      ((open?.toList.map fun token => { token with text := token.text.reverse }).map piece) := by
  cases open? with
  | none => exact .nil _ _
  | some token =>
    have hne : token.text.reverse ≠ [] := by simpa using hopen token rfl
    simpa [piece] using Text.Pieces.singleton token.start hne (List.prefix_refl (token.text.reverse.drop 0))

/-- What has been read of a token and the rest of the list are one text, which starts where the token
starts. -/
theorem pieces_scan (column : Int) (open? : Option PropertyToken) (shelter : Shelter) (rest : Text)
    (hopen : ∀ token ∈ open?, token.text ≠ [] ∧ token.stop = column) :
    Text.Pieces (open?.elim column start) ((open?.elim [] fun token => token.text.reverse) ++ rest)
      ((scan column open? shelter rest).map piece) := by
  induction rest generalizing column open? shelter with
  | nil =>
    rw [scan, List.append_nil]
    exact pieces_begun column fun token htoken => (hopen token htoken).1
  | cons c rest ih =>
    rw [scan]
    split
    · have hcolumn : open?.elim column start + ((open?.elim [] fun token => token.text.reverse).length : Int) =
          column := by
        cases open? with
        | none => simp
        | some token => simpa [stop] using (hopen token rfl).2
      rw [List.map_append]
      refine (pieces_begun column fun token htoken => (hopen token htoken).1).append c ?_
      rw [hcolumn]
      exact ih (column + 1) none shelter (by simp)
    · -- the token goes on, or begins at this column
      have hread : ∀ token ∈ some (⟨c :: (open?.getD ⟨[], column⟩).text, (open?.getD ⟨[], column⟩).start⟩ :
          PropertyToken), token.text ≠ [] ∧ token.stop = column + 1 := by
        intro token htoken
        obtain rfl := Option.mem_some_iff.mp htoken
        refine ⟨List.cons_ne_nil _ _, ?_⟩
        cases open? with
        | none => simp [stop]
        | some token =>
          have hstop := (hopen token rfl).2
          simp only [stop, Option.getD_some, List.length_cons] at hstop ⊢
          push_cast
          omega
      have hrest := ih (column + 1) _ (shelter.step c) hread
      cases open? with
      | none => exact hrest
      | some token => simpa using hrest

theorem pieces_tokens (column : Int) (t : Text) : Text.Pieces column t ((tokens column t).map piece) :=
  pieces_scan column none Shelter.none t (by simp)

end ViewMarkup.PropertyToken
