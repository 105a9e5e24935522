import ViewMarkup.Proofs.Text.Scan

namespace ViewMarkup

/-- The blanks beyond the ASCII range. -/
def blankRanges : List (Nat × Nat) :=
  [(0x85, 0x85), (0xa0, 0xa0), (0x1680, 0x1680), (0x2000, 0x200a), (0x2028, 0x2029), (0x202f, 0x202f),
   (0x205f, 0x205f), (0x3000, 0x3000)]

theorem lt_or_inRanges_of_isBlank {c : Char} (hblank : isBlank c) :
    c.toNat < 33 ∨ ∃ r ∈ blankRanges, r.1 ≤ c.toNat ∧ c.toNat ≤ r.2 := by
  simp only [isBlank, Bool.or_eq_true, Bool.and_eq_true, beq_iff_eq, decide_eq_true_eq] at hblank
  simp only [blankRanges, List.mem_cons, List.not_mem_nil, or_false, exists_eq_or_imp, exists_eq_left]
  omega

theorem isWord_eq_false_of_isBlank {c : Char} (hblank : isBlank c) : isWord c = false := by
  obtain hascii | ⟨r, hr, hlow, hhigh⟩ := lt_or_inRanges_of_isBlank hblank
  · have hall : ∀ code < 33, isWord (Char.ofNat code) = false := by decide +kernel
    rw [← Char.ofNat_toNat c]
    exact hall _ hascii
  · have habove : blankRanges.all (fun r => Nat.ble 128 r.1) = true := by decide +kernel
    have hdisjoint : wordRanges.all (fun w => blankRanges.all fun r => Nat.blt w.2 r.1 || Nat.blt r.2 w.1) = true := by
      decide +kernel
    have hle : 128 ≤ r.1 := Nat.le_of_ble_eq_true (List.all_eq_true.mp habove r hr)
    rw [isWord, if_neg (by omega), inRanges, List.any_eq_false]
    intro w hw
    have hapart := List.all_eq_true.mp (List.all_eq_true.mp hdisjoint w hw) r hr
    simp only [Bool.or_eq_true, Nat.blt_eq] at hapart
    simp only [Bool.and_eq_true, decide_eq_true_eq]
    omega

theorem isBlank_eq_false_of_isWord {c : Char} (hword : isWord c) : isBlank c = false := by
  by_contra hblank
  rw [isWord_eq_false_of_isBlank (by simpa using hblank)] at hword
  cases hword

namespace Text

/-- Blanks within a line. -/
def IsGap (t : Text) : Prop :=
  ∀ c ∈ t, isBlank c ∧ c ≠ '\n'

instance (t : Text) : Decidable (IsGap t) :=
  decidable_of_iff (t.all fun c => isBlank c && c != '\n') (by simp [IsGap])

theorem trim_eq_self_iff {t : Text} :
    trim t = t ↔ (∀ c ∈ t.head?, isBlank c = false) ∧ ∀ c ∈ t.getLast?, isBlank c = false := by
  refine ⟨fun htrim => ?_, fun ⟨hfirst, hlast⟩ => trim_eq_self hfirst hlast⟩
  have hstart : trimStart t = t := by
    rw [← htrim]
    exact trimStart_trimEnd_trimStart t
  have hend : t.rdropWhile isBlank = t := by
    rw [← trimEnd_eq_rdropWhile]
    nth_rewrite 1 [← hstart]
    exact htrim
  constructor
  · intro c hc
    have hnot := List.head?_dropWhile_not isBlank t
    rw [show t.dropWhile isBlank = t from hstart, Option.mem_def.mp hc] at hnot
    simpa using hnot
  · intro c hc
    have hne : t ≠ [] := by
      rintro rfl
      cases hc
    rw [List.getLast?_eq_some_getLast hne, Option.mem_some_iff] at hc
    simpa [hc] using List.rdropWhile_eq_self_iff.mp hend hne

theorem takeWhile_append_of_head {p : Char → Bool} {t rest : Text} (ht : ∀ c ∈ t, p c)
    (hrest : ∀ c ∈ rest.head?, p c = false) : (t ++ rest).takeWhile p = t := by
  rw [List.takeWhile_append_of_pos ht]
  cases rest with
  | nil => simp
  | cons c rest => rw [List.takeWhile_cons_of_neg (by simp [hrest c rfl]), List.append_nil]

theorem dropWhile_append_of_head {p : Char → Bool} {t rest : Text} (ht : ∀ c ∈ t, p c)
    (hrest : ∀ c ∈ rest.head?, p c = false) : (t ++ rest).dropWhile p = rest := by
  rw [List.dropWhile_append_of_pos ht]
  cases rest with
  | nil => rfl
  | cons c rest => rw [List.dropWhile_cons_of_neg (by simp [hrest c rfl])]

theorem word?_append {word rest : Text} (hne : word ≠ []) (hword : ∀ c ∈ word, isWord c)
    (hrest : ∀ c ∈ rest.head?, isWord c = false) : word? (word ++ rest) = some (word, rest) := by
  unfold word?
  rw [takeWhile_append_of_head hword hrest]
  cases word with
  | nil => exact absurd rfl hne
  | cons c word => simp

theorem trimStart_append {blanks rest : Text} (hblanks : ∀ c ∈ blanks, isBlank c)
    (hrest : ∀ c ∈ rest.head?, isBlank c = false) : trimStart (blanks ++ rest) = rest :=
  dropWhile_append_of_head hblanks hrest

theorem afterBlanks?_append {blanks rest : Text} (hne : blanks ≠ []) (hblanks : ∀ c ∈ blanks, isBlank c)
    (hrest : ∀ c ∈ rest.head?, isBlank c = false) : afterBlanks? (blanks ++ rest) = some rest := by
  cases blanks with
  | nil => exact absurd rfl hne
  | cons c blanks =>
    obtain ⟨hc, hblanks⟩ := List.forall_mem_cons.mp hblanks
    rw [List.cons_append, afterBlanks?, if_pos hc, trimStart_append hblanks hrest]

end Text

end ViewMarkup
