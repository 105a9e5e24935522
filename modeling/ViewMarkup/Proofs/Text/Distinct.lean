import Mathlib.Data.List.Induction

namespace ViewMarkup

variable {α : Type} [BEq α] [LawfulBEq α]

/-- One more entry is kept exactly if it is new. -/
theorem eraseDups_concat (entries : List α) (entry : α) :
    (entries ++ [entry]).eraseDups =
      if entries.eraseDups.contains entry then entries.eraseDups else entries.eraseDups ++ [entry] := by
  rw [List.eraseDups_append]
  by_cases hmem : entry ∈ entries
  · simp [hmem, List.removeAll]
  · simp [hmem, List.removeAll, List.eraseDups_cons]

theorem nodup_eraseDups (entries : List α) : entries.eraseDups.Nodup := by
  induction entries using List.reverseRecOn with
  | nil => simp
  | append_singleton entries entry ih =>
    rw [eraseDups_concat]
    split
    · exact ih
    · rename_i hnew
      have hfresh : entry ∉ entries.eraseDups := by simpa using hnew
      exact List.nodup_append.mpr ⟨ih, by simp, by rintro a ha b hb rfl; exact hfresh (by simp_all)⟩

/-- Entries that came once are all kept. -/
theorem eraseDups_of_nodup {entries : List α} (hnodup : entries.Nodup) : entries.eraseDups = entries := by
  induction entries using List.reverseRecOn with
  | nil => simp
  | append_singleton entries entry ih =>
    obtain ⟨hbefore, _, hfresh⟩ := List.nodup_append.mp hnodup
    have hnew : entry ∉ entries := fun hmem => hfresh entry hmem entry (by simp) rfl
    rw [eraseDups_concat, ih hbefore, if_neg (by simpa using hnew)]

/-- Entries under increasing keys are kept in the order of their first keys: the first key of an entry comes
before every key of an entry behind it. -/
theorem pairwise_eraseDups {κ : Type} {before : κ → κ → Prop} {entries : List (κ × α)}
    (hsorted : entries.Pairwise fun first second => before first.1 second.1) :
    (entries.map Prod.snd).eraseDups.Pairwise fun first second =>
      ∃ key, (key, first) ∈ entries ∧ ∀ other, (other, second) ∈ entries → before key other := by
  induction entries using List.reverseRecOn with
  | nil => simp
  | append_singleton entries entry ih =>
    obtain ⟨last, value⟩ := entry
    obtain ⟨hbefore, -, hacross⟩ := List.pairwise_append.mp hsorted
    have hlast : ∀ entry ∈ entries, before entry.1 last := fun entry hentry =>
      hacross entry hentry (last, value) (by simp)
    -- the key that comes first among the old entries also comes before the new one
    have hkept : (entries.map Prod.snd).eraseDups.Pairwise fun first second =>
        ∃ key, (key, first) ∈ entries ++ [(last, value)] ∧
          ∀ other, (other, second) ∈ entries ++ [(last, value)] → before key other := by
      refine (ih hbefore).imp ?_
      rintro first second ⟨key, hkey, hfirst⟩
      refine ⟨key, List.mem_append_left _ hkey, fun other hother => ?_⟩
      obtain hother | hother := List.mem_append.mp hother
      · exact hfirst other hother
      · obtain ⟨rfl, -⟩ := Prod.mk.inj (List.mem_singleton.mp hother)
        exact hlast _ hkey
    rw [List.map_append, List.map_singleton, eraseDups_concat]
    split
    · exact hkept
    · rename_i hnew
      have hfresh : value ∉ entries.map Prod.snd := by simpa using hnew
      refine List.pairwise_append.mpr ⟨hkept, List.pairwise_singleton _ _, fun first hmem second hsecond => ?_⟩
      obtain rfl := List.mem_singleton.mp hsecond
      obtain ⟨⟨key, _⟩, hkey, rfl⟩ := List.mem_map.mp (List.mem_eraseDups.mp hmem)
      refine ⟨key, List.mem_append_left _ hkey, fun other hother => ?_⟩
      obtain hother | hother := List.mem_append.mp hother
      · exact absurd (List.mem_map_of_mem hother) hfresh
      · obtain ⟨rfl, -⟩ := Prod.mk.inj (List.mem_singleton.mp hother)
        exact hlast _ hkey

end ViewMarkup
