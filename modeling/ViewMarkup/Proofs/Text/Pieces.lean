import ViewMarkup.Proofs.Text.Trim

namespace ViewMarkup.Text

/-- The characters from column `start` up to, but without, column `stop`. -/
def slice (start stop : Nat) (t : Text) : Text :=
  (t.drop start).take (stop - start)

theorem slice_of_prefix {t piece : Text} {start : Nat} (hstands : piece <+: t.drop start) :
    slice start (start + piece.length) t = piece := by
  rw [slice, Nat.add_sub_cancel_left]
  exact (List.prefix_iff_eq_take.mp hstands).symm

theorem stop_le_of_prefix {t piece : Text} {start : Nat} (hne : piece ≠ [])
    (hstands : piece <+: t.drop start) : start + piece.length ≤ t.length := by
  have hlength := hstands.length_le
  have hpositive := List.length_pos_iff.mpr hne
  rw [List.length_drop] at hlength
  omega

/-- Pieces of a text that itself starts at column `base`, each with its column. -/
structure Pieces (base : Int) (t : Text) (pieces : List (Int × Text)) : Prop where
  stands : ∀ piece ∈ pieces, piece.2 ≠ [] ∧ ∃ start : Nat, piece.1 = base + start ∧ piece.2 <+: t.drop start
  apart : pieces.Pairwise fun piece next => piece.1 + (piece.2.length : Int) < next.1

namespace Pieces

theorem nil (base : Int) (t : Text) : Pieces base t [] :=
  ⟨by simp, .nil⟩

theorem singleton {t piece : Text} {start : Nat} (base : Int) (hne : piece ≠ [])
    (hstands : piece <+: t.drop start) : Pieces base t [(base + start, piece)] :=
  ⟨List.forall_mem_singleton.mpr ⟨hne, start, rfl, hstands⟩, List.pairwise_singleton _ _⟩

theorem sublist {base : Int} {t : Text} {pieces fewer : List (Int × Text)} (hpieces : Pieces base t pieces)
    (hfewer : fewer.Sublist pieces) : Pieces base t fewer :=
  ⟨fun piece hpiece => hpieces.stands piece (hfewer.subset hpiece), hpieces.apart.sublist hfewer⟩

theorem shift {base : Int} {t : Text} {pieces : List (Int × Text)} (offset : Int)
    (hpieces : Pieces base t pieces) :
    Pieces (offset + base) t (pieces.map fun piece => (offset + piece.1, piece.2)) := by
  refine ⟨List.forall_mem_map.mpr fun piece hpiece => ?_, List.pairwise_map.mpr ?_⟩
  · obtain ⟨hne, start, hstart, hstands⟩ := hpieces.stands piece hpiece
    exact ⟨hne, start, by omega, hstands⟩
  · apply hpieces.apart.imp
    intro piece next hapart
    dsimp only
    omega

/-- The pieces on both sides of a separator. -/
theorem append {base : Int} {before after : Text} {pieces pieces' : List (Int × Text)}
    (hbefore : Pieces base before pieces) (separator : Char)
    (hafter : Pieces (base + before.length + 1) after pieces') :
    Pieces base (before ++ separator :: after) (pieces ++ pieces') := by
  refine ⟨List.forall_mem_append.mpr ⟨?_, ?_⟩, List.pairwise_append.mpr ⟨hbefore.apart, hafter.apart, ?_⟩⟩
  · intro piece hpiece
    obtain ⟨hne, start, hstart, hstands⟩ := hbefore.stands piece hpiece
    have hstop := stop_le_of_prefix hne hstands
    refine ⟨hne, start, hstart, ?_⟩
    rw [List.drop_append_of_le_length (by omega)]
    exact hstands.trans (List.prefix_append _ _)
  · intro piece hpiece
    obtain ⟨hne, start, hstart, hstands⟩ := hafter.stands piece hpiece
    refine ⟨hne, before.length + 1 + start, by push_cast; omega, ?_⟩
    rw [Nat.add_assoc, ← List.drop_drop, List.drop_left, Nat.add_comm 1, List.drop_succ_cons]
    exact hstands
  · intro piece hpiece next hnext
    obtain ⟨hne, start, hstart, hstands⟩ := hbefore.stands piece hpiece
    obtain ⟨_, start', hstart', _⟩ := hafter.stands next hnext
    have hstop := stop_le_of_prefix hne hstands
    omega

/-- Pieces of a part of a text are pieces of the whole text. -/
theorem whole {base : Int} {t : Text} {pieces : List (Int × Text)} (before after : Text)
    (hpieces : Pieces (base + before.length) t pieces) : Pieces base (before ++ t ++ after) pieces := by
  refine ⟨fun piece hpiece => ?_, hpieces.apart⟩
  obtain ⟨hne, start, hstart, hstands⟩ := hpieces.stands piece hpiece
  have hstop := stop_le_of_prefix hne hstands
  refine ⟨hne, before.length + start, by push_cast; omega, ?_⟩
  rw [List.append_assoc, ← List.drop_drop, List.drop_left, List.drop_append_of_le_length (by omega)]
  exact hstands.trans (List.prefix_append _ _)

end Pieces

/-- A text is its trimmed part between blanks. -/
theorem exists_blanks (t : Text) :
    ∃ trail, (∀ c ∈ trail, isBlank c) ∧ t = t.takeWhile isBlank ++ trim t ++ trail := by
  refine ⟨(trimStart t).rtakeWhile isBlank, fun c hc => List.mem_rtakeWhile_imp hc, ?_⟩
  rw [List.append_assoc, trim, trimEnd_eq_rdropWhile, List.rdropWhile_append_rtakeWhile]
  exact (List.takeWhile_append_dropWhile).symm

/-- Blanks around a trimmed text are all that trimming takes away. -/
theorem trim_between {blanks t trail : Text} (hblanks : ∀ c ∈ blanks, isBlank c)
    (htrail : ∀ c ∈ trail, isBlank c) (hne : t ≠ []) (htrim : trim t = t) :
    trim (blanks ++ t ++ trail) = t ∧ indent (blanks ++ t ++ trail) = blanks.length := by
  have hstart : trimStart t = t := by rw [← htrim]; exact trimStart_trimEnd_trimStart t
  cases t with
  | nil => exact absurd rfl hne
  | cons c rest =>
    have hfirst : isBlank c = false := by
      by_contra hblank
      have hlength := congrArg List.length hstart
      have hdropped := (List.dropWhile_suffix isBlank (l := rest)).length_le
      rw [trimStart, List.dropWhile_cons_of_pos (by simpa using hblank), List.length_cons] at hlength
      omega
    rw [List.append_assoc]
    constructor
    · rw [trim, trimStart, List.dropWhile_append_of_pos hblanks, List.cons_append,
        List.dropWhile_cons_of_neg (by simp [hfirst]), ← List.cons_append, trimEnd_eq_rdropWhile,
        List.rdropWhile, List.reverse_append, List.dropWhile_append_of_pos (by simpa using htrail)]
      rw [trim, hstart] at htrim
      exact htrim
    · rw [indent, List.takeWhile_append_of_pos hblanks, List.cons_append,
        List.takeWhile_cons_of_neg (by simp [hfirst]), List.append_nil]

/-- The end of a trimmed text is trimmed if it does not start with a blank. -/
theorem trim_of_suffix {t u : Text} (ht : trim t = t) (hsuffix : u <:+ t) (hstart : trimStart u = u) :
    trim u = u := by
  rw [trim, hstart, trimEnd_eq_rdropWhile, List.rdropWhile_eq_self_iff]
  intro hne
  have hend : t.rdropWhile isBlank = t := by
    rw [← ht, trim, trimEnd_eq_rdropWhile]
    exact List.rdropWhile_idempotent _ _
  have hlast := List.rdropWhile_eq_self_iff.mp hend (hsuffix.ne_nil hne)
  rwa [← hsuffix.getLast hne] at hlast

theorem trim_prefix_drop (t : Text) : trim t <+: t.drop (indent t) := by
  have htake : t.take (indent t) = t.takeWhile isBlank :=
    (List.prefix_iff_eq_take.mp (List.takeWhile_prefix isBlank)).symm
  have hdrop : t.drop (indent t) = trimStart t := by
    have hsplit := List.take_append_drop (indent t) t
    rw [htake] at hsplit
    exact List.append_cancel_left (hsplit.trans List.takeWhile_append_dropWhile.symm)
  rw [hdrop]
  exact List.rdropWhile_prefix isBlank (trimStart t)

/-- Pieces of the end of a trimmed line are pieces of the line. -/
theorem Pieces.of_suffix {raw t : Text} {pieces : List (Int × Text)} (hsuffix : t <:+ trim raw)
    (hpieces : Pieces (indent raw + ((trim raw).length - t.length)) t pieces) : Pieces 0 raw pieces := by
  obtain ⟨trail, _, hraw⟩ := exists_blanks raw
  obtain ⟨lead, hlead⟩ := hsuffix
  rw [hraw, ← hlead, ← List.append_assoc]
  apply Pieces.whole
  have hlength := congrArg List.length hlead
  rw [List.length_append] at hlength
  rw [List.length_append, show (raw.takeWhile isBlank).length = indent raw from rfl]
  rwa [show (0 : Int) + ((indent raw + lead.length : Nat) : Int) =
    indent raw + ((trim raw).length - t.length) by push_cast; omega]

end ViewMarkup.Text
