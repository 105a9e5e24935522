import Mathlib.Data.List.Infix
import ViewMarkup.Proofs.Text.Trim

namespace ViewMarkup.Text

theorem after?_eq_some_iff {lead t rest : Text} : after? lead t = some rest ↔ t = lead ++ rest := by
  induction lead generalizing t with
  | nil => simp [after?, eq_comm]
  | cons c lead ih =>
    cases t with
    | nil => simp [after?]
    | cons d t =>
      by_cases hsame : c = d
      · simp [after?, hsame, ih]
      · simp [after?, hsame, Ne.symm hsame]

theorem before?_eq_some_iff {trail t rest : Text} : before? trail t = some rest ↔ t = rest ++ trail := by
  rw [before?, Option.map_eq_some_iff]
  constructor
  · rintro ⟨reversed, hafter, rfl⟩
    rw [after?_eq_some_iff, List.reverse_eq_iff] at hafter
    simpa using hafter
  · rintro rfl
    exact ⟨rest.reverse, by simp [after?_eq_some_iff], List.reverse_reverse rest⟩

theorem isSome_before?_iff {trail t : Text} : (before? trail t).isSome ↔ trail <:+ t := by
  rw [Option.isSome_iff_exists]
  simp only [before?_eq_some_iff]
  exact exists_congr fun rest => eq_comm

/-- Blanks are passed over as far as they go. -/
theorem eq_of_afterBlanks? {t rest : Text} (hafter : afterBlanks? t = some rest) :
    ∃ blanks, t = blanks ++ rest ∧ (∀ c ∈ blanks, isBlank c) ∧ trimStart rest = rest := by
  cases t with
  | nil => cases hafter
  | cons c t =>
    simp only [afterBlanks?] at hafter
    split at hafter
    · rename_i hblank
      cases hafter
      refine ⟨c :: t.takeWhile isBlank, ?_, ?_, List.dropWhile_idempotent _ t⟩
      · rw [List.cons_append, trimStart, List.takeWhile_append_dropWhile]
      · exact List.forall_mem_cons.mpr ⟨hblank, fun d hd => List.mem_takeWhile_imp hd⟩
    · cases hafter

theorem eq_of_word? {t word rest : Text} (hword : word? t = some (word, rest)) :
    t = word ++ rest ∧ ∀ c ∈ word, isWord c := by
  unfold word? at hword
  split at hword
  · cases hword
  · cases hword
    exact ⟨List.prefix_append_drop (List.takeWhile_prefix isWord), fun c hc => List.mem_takeWhile_imp hc⟩

theorem eq_of_name? {t name rest : Text} (hname : name? t = some (name, rest)) :
    t = name ++ rest ∧ ∀ c ∈ name, isWord c := by
  unfold name? at hname
  split at hname
  · cases hname
  · split at hname
    · exact eq_of_word? hname
    · cases hname

theorem eq_of_oneLine? {t u : Text} (hline : oneLine? t = some u) : t = u ∧ u ≠ [] := by
  unfold oneLine? at hline
  split at hline
  · cases hline
  · rename_i hnot
    cases hline
    exact ⟨rfl, fun hnil => hnot (.inl hnil)⟩

theorem newline_not_mem_of_oneLine? {t u : Text} (hline : oneLine? t = some u) : '\n' ∉ u := by
  unfold oneLine? at hline
  split at hline
  · cases hline
  · cases hline
    simp_all [isOneLine]

theorem subset_of_cut {c : Char} {t before : Text} {after? : Option Text} (hcut : cut c t = (before, after?)) :
    before ⊆ t ∧ ∀ after ∈ after?, after ⊆ t := by
  cases hcut
  refine ⟨(List.takeWhile_prefix _).subset, fun after hafter => ?_⟩
  have hsub : t.dropWhile (· != c) ⊆ t := (List.dropWhile_suffix _).subset
  cases hdrop : t.dropWhile (· != c) with
  | nil => simp [hdrop] at hafter
  | cons d rest =>
    rw [hdrop] at hafter hsub
    obtain rfl : rest = after := Option.some.inj hafter
    exact List.subset_of_cons_subset hsub

/-- The text before the first `c` is free of it. -/
theorem cut_append {c : Char} {before : Text} (hbefore : c ∉ before) (after : Text) :
    cut c (before ++ c :: after) = (before, some after) := by
  have htake : ∀ d ∈ before, (d != c) = true := by
    intro d hd
    simp only [bne_iff_ne, ne_eq]
    rintro rfl
    exact hbefore hd
  rw [cut, List.takeWhile_append_of_pos htake, List.dropWhile_append_of_pos htake]
  simp

/-- Cutting at a character takes the text apart around the first one. -/
theorem eq_of_cut {c : Char} {t after : Text} (hcut : (cut c t).2 = some after) :
    t = (cut c t).1 ++ c :: after ∧ c ∉ (cut c t).1 := by
  have hsplit := List.takeWhile_append_dropWhile (p := (· != c)) (l := t)
  simp only [cut] at hcut ⊢
  constructor
  · cases hdrop : t.dropWhile (· != c) with
    | nil => simp [hdrop] at hcut
    | cons d rest =>
      have hnot := List.head?_dropWhile_not (· != c) t
      rw [hdrop] at hcut hnot hsplit
      obtain rfl : rest = after := Option.some.inj hcut
      obtain rfl : d = c := by simpa using hnot
      exact hsplit.symm
  · intro hmem
    simpa using List.mem_takeWhile_imp hmem

end ViewMarkup.Text
