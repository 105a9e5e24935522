import ViewMarkup.Proofs.Text.Lines

namespace ViewMarkup.Text

/-- The text with the leading blanks of every line taken away. -/
def flush (t : Text) : Text :=
  join "\n" ((split '\n' t).map trimStart)

theorem split_flush (t : Text) : split '\n' (flush t) = (split '\n' t).map trimStart := by
  have hne : (split '\n' t).map trimStart ≠ [] := by simpa using split_ne_nil '\n' t
  have hpieces : ∀ piece ∈ (split '\n' t).map trimStart, '\n' ∉ piece := by
    rw [List.forall_mem_map]
    intro piece hpiece hmem
    exact (of_mem_split hpiece).1 ((List.dropWhile_suffix isBlank).subset hmem)
  rw [flush, split_eq_splitOn]
  exact List.splitOn_intercalate '\n' hpieces hne

theorem eq_of_split_eq {t u : Text} (hsplit : split '\n' t = split '\n' u) : t = u := by
  rw [← join_split t, hsplit, join_split]

theorem flush_join (pieces : List Text) : flush (join "\n" pieces) = join "\n" (pieces.map flush) := by
  by_cases hne : pieces = []
  · rw [hne]
    rfl
  · apply eq_of_split_eq
    have hne' : pieces.map flush ≠ [] := by simpa using hne
    rw [split_flush, split_join hne, split_join hne', List.map_flatMap, List.flatMap_map]
    exact List.flatMap_congr fun piece _ => (split_flush piece).symm

/-- Blanks in front of the first line are forgotten. -/
theorem flush_append {blanks : Text} (hblanks : ∀ c ∈ blanks, c = ' ') (t : Text) :
    flush (blanks ++ t) = flush t := by
  induction blanks with
  | nil => rfl
  | cons c blanks ih =>
    obtain ⟨rfl, hrest⟩ := List.forall_mem_cons.mp hblanks
    rw [← ih hrest, List.cons_append]
    obtain ⟨piece, pieces, hpieces⟩ := List.exists_cons_of_ne_nil (split_ne_nil '\n' (blanks ++ t))
    have hsplit : split '\n' (' ' :: (blanks ++ t)) = (' ' :: piece) :: pieces := by
      rw [split, hpieces]
      rfl
    rw [flush, flush, hsplit, hpieces]
    rfl

theorem flush_of_not_mem {t : Text} (hfeeds : '\n' ∉ t) : flush t = trimStart t := by
  rw [flush, split_of_not_mem hfeeds]
  exact List.intercalate_singleton

end ViewMarkup.Text
