import Mathlib.Data.List.DropRight
import ViewMarkup.Text.Lines

namespace ViewMarkup.Text

variable {c : Char} {t : Text}

theorem foldPairs_of_not_mem (hreturns : '\r' ∉ t) : foldPairs t = t := by
  fun_induction foldPairs t with
  | case1 => rfl
  | case2 rest ih => simp at hreturns
  | case3 c rest _ ih => rw [ih fun hmem => hreturns (List.mem_cons_of_mem c hmem)]

theorem dropReturns_of_not_mem (hreturns : '\r' ∉ t) : dropReturns t = t := by
  change t.rdropWhile (· == '\r') = t
  rw [List.rdropWhile_eq_self_iff]
  intro hne hlast
  exact hreturns (eq_of_beq hlast ▸ List.getLast_mem hne)

theorem split_eq_splitOn (c : Char) (t : Text) : split c t = t.splitOn c := by
  induction t with
  | nil => rw [split, List.splitOn_nil]
  | cons d rest ih =>
    rw [split, List.splitOn_cons_eq_if_modifyHead, ih]
    by_cases hd : d = c
    · simp [hd]
    · obtain ⟨piece, pieces, hpieces⟩ := List.exists_cons_of_ne_nil (List.splitOn_ne_nil c rest)
      simp [hd, hpieces]

theorem split_ne_nil (c : Char) (t : Text) : split c t ≠ [] :=
  split_eq_splitOn c t ▸ List.splitOn_ne_nil c t

theorem split_of_not_mem (hc : c ∉ t) : split c t = [t] := by
  rw [split_eq_splitOn, List.splitOn_eq_singleton hc]

theorem split_append {before : Text} (hbefore : c ∉ before) (after : Text) :
    split c (before ++ c :: after) = before :: split c after := by
  rw [split_eq_splitOn, split_eq_splitOn, List.splitOn_append_cons_self_of_not_mem hbefore]

/-- A piece is a part of the text without the separator. -/
theorem of_mem_split {piece : Text} (hpiece : piece ∈ split c t) : c ∉ piece ∧ piece ⊆ t := by
  induction t generalizing piece with
  | nil =>
    obtain rfl := List.mem_singleton.mp hpiece
    exact ⟨List.not_mem_nil, List.Subset.refl _⟩
  | cons d rest ih =>
    rw [split] at hpiece
    split at hpiece
    · obtain rfl | hpiece := List.mem_cons.mp hpiece
      · exact ⟨List.not_mem_nil, List.nil_subset _⟩
      · exact ⟨(ih hpiece).1, List.subset_cons_of_subset d (ih hpiece).2⟩
    · rename_i hd
      split at hpiece
      · rename_i hnil
        exact absurd hnil (split_ne_nil c rest)
      · rename_i first pieces hpieces
        rw [hpieces] at ih
        obtain rfl | hpiece := List.mem_cons.mp hpiece
        · obtain ⟨hfirst, hsub⟩ := ih List.mem_cons_self
          exact ⟨List.not_mem_cons_of_ne_of_not_mem (Ne.symm hd) hfirst, List.cons_subset_cons d hsub⟩
        · obtain ⟨hpiece, hsub⟩ := ih (List.mem_cons_of_mem _ hpiece)
          exact ⟨hpiece, List.subset_cons_of_subset d hsub⟩

theorem join_split (t : Text) : join "\n" (split '\n' t) = t := by
  rw [split_eq_splitOn]
  exact List.intercalate_splitOn '\n'

/-- Pieces that are joined line by line have their lines one after the other. -/
theorem split_join {pieces : List Text} (hne : pieces ≠ []) :
    split '\n' (join "\n" pieces) = pieces.flatMap (split '\n') := by
  induction pieces with
  | nil => exact absurd rfl hne
  | cons piece pieces ih =>
    cases pieces with
    | nil => simp [join]
    | cons next pieces =>
      have hjoin : join "\n" (piece :: next :: pieces) = piece ++ '\n' :: join "\n" (next :: pieces) := by
        rw [join, List.intercalate_cons_cons, List.append_assoc]
        rfl
      rw [hjoin, split_eq_splitOn, List.splitOn_append_cons_self, ← split_eq_splitOn, ← split_eq_splitOn,
        ih (List.cons_ne_nil _ _)]
      rfl

theorem not_mem_join {separator : Text} (hseparator : c ∉ separator) {pieces : List Text}
    (hpieces : ∀ piece ∈ pieces, c ∉ piece) : c ∉ join separator pieces := by
  induction pieces with
  | nil => exact List.not_mem_nil
  | cons piece pieces ih =>
    obtain ⟨hpiece, hrest⟩ := List.forall_mem_cons.mp hpieces
    by_cases hnil : pieces = []
    · rw [hnil, join, List.intercalate_singleton]
      exact hpiece
    · rw [join, List.intercalate_cons_of_ne_nil hnil, List.mem_append, List.mem_append, not_or, not_or]
      exact ⟨⟨hpiece, hseparator⟩, ih hrest⟩

theorem newline_not_mem_join {separator : Text} (hseparator : '\n' ∉ separator) {pieces : List Text}
    (hpieces : ∀ piece ∈ pieces, '\n' ∉ piece) : '\n' ∉ join separator pieces :=
  not_mem_join hseparator hpieces

/-- No line of a text has a line feed. -/
theorem newline_not_mem_lines {raw : Text} (hraw : raw ∈ lines t) : '\n' ∉ raw := by
  obtain ⟨piece, hpiece, rfl⟩ := List.mem_map.mp hraw
  intro hmem
  exact (of_mem_split hpiece).1 ((List.rdropWhile_prefix _ piece).subset hmem)

theorem lines_of_not_mem (hfeeds : '\n' ∉ t) (hreturns : '\r' ∉ t) : lines t = [t] := by
  rw [lines, foldPairs_of_not_mem hreturns, split_of_not_mem hfeeds, List.map_singleton,
    dropReturns_of_not_mem hreturns]

/-- A line feed ends the first line of a text. -/
theorem lines_append {first rest : Text} (hfeeds : '\n' ∉ first) (hfirst : '\r' ∉ first)
    (hrest : '\r' ∉ rest) : lines (first ++ '\n' :: rest) = first :: lines rest := by
  have hreturns : '\r' ∉ first ++ '\n' :: rest := by simp [hfirst, hrest]
  rw [lines, lines, foldPairs_of_not_mem hreturns, foldPairs_of_not_mem hrest, split_append hfeeds,
    List.map_cons, dropReturns_of_not_mem hfirst]

end ViewMarkup.Text
