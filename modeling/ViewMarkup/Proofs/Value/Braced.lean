import ViewMarkup.Proofs.Text.Words
import ViewMarkup.Value.Braced

namespace ViewMarkup

theorem eq_of_spanAt? {t body after : Text} (hspan : spanAt? t = some (body, after)) :
    t = '\x7b' :: (body ++ '\x7d' :: after) ∧ body ≠ [] ∧ '\x7b' ∉ body ∧ '\x7d' ∉ body := by
  unfold spanAt? at hspan
  split at hspan
  · rename_i rest
    have hbody : ∀ c ∈ rest.takeWhile (fun c => c != '\x7b' && c != '\x7d'), c ≠ '\x7b' ∧ c ≠ '\x7d' := by
      intro c hc
      simpa using List.mem_takeWhile_imp hc
    split at hspan
    · cases hspan
    rename_i hne
    split at hspan
    · rename_i hdrop
      cases hspan
      refine ⟨?_, hne, fun hmem => (hbody _ hmem).1 rfl, fun hmem => (hbody _ hmem).2 rfl⟩
      rw [← hdrop, List.prefix_iff_eq_append.mp (List.takeWhile_prefix _)]
    · cases hspan
  · cases hspan

theorem braced?_eq_some {t : Text} (hne : t ≠ []) (hopen : '\x7b' ∉ t) (hclose : '\x7d' ∉ t) :
    braced? ('\x7b' :: (t ++ ['\x7d'])) = some (Text.trim t) := by
  have hbraces : ∀ c ∈ t, (c != '\x7b' && c != '\x7d') = true := by
    intro c hc
    rw [Bool.and_eq_true_iff, bne_iff_ne, bne_iff_ne]
    exact ⟨ne_of_mem_of_not_mem hc hopen, ne_of_mem_of_not_mem hc hclose⟩
  have htake : (t ++ ['\x7d']).takeWhile (fun c => c != '\x7b' && c != '\x7d') = t :=
    Text.takeWhile_append_of_head hbraces (by simp)
  have hspan : spanAt? ('\x7b' :: (t ++ ['\x7d'])) = some (t, []) := by
    rw [spanAt?, htake]
    cases t with
    | nil => exact absurd rfl hne
    | cons c t => simp
  rw [braced?, hspan]
  rfl

/-- Expressions in braces, in a text without blanks around it. -/
theorem braced?_eq_some_iff {t raw : Text} (htrim : Text.trim t = t) :
    braced? t = some raw ↔
      ∃ body, body ≠ [] ∧ '\x7b' ∉ body ∧ '\x7d' ∉ body ∧ t = '\x7b' :: (body ++ ['\x7d']) ∧ raw = Text.trim body := by
  constructor
  · intro hbraced
    unfold braced? at hbraced
    split at hbraced
    · rename_i body after hspan
      obtain ⟨rfl, hne, hopen, hclose⟩ := eq_of_spanAt? hspan
      split at hbraced
      · rename_i hend
        cases hbraced
        refine ⟨body, hne, hopen, hclose, ?_, rfl⟩
        simp only [Text.atLineEnd, Bool.or_eq_true, beq_iff_eq] at hend
        obtain rfl | rfl := hend
        · rfl
        · have hlast := (Text.trim_eq_self_iff.mp htrim).2 '\n'
            (List.getLast?_eq_some_iff.mpr ⟨'\x7b' :: (body ++ ['\x7d']), by simp⟩)
          cases hlast
      · cases hbraced
    · cases hbraced
  · rintro ⟨body, hne, hopen, hclose, rfl, rfl⟩
    exact braced?_eq_some hne hopen hclose

end ViewMarkup
