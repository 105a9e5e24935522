import Mathlib.Data.List.DropRight
import ViewMarkup.Text.Scan

namespace ViewMarkup.Text

theorem trimEnd_eq_rdropWhile (t : Text) : trimEnd t = t.rdropWhile isBlank := rfl

/-- A text that does not start with a blank still does not when its end is trimmed. -/
theorem trimStart_trimEnd_trimStart (t : Text) :
    trimStart (trimEnd (trimStart t)) = trimEnd (trimStart t) := by
  obtain ⟨tail, htail⟩ := List.rdropWhile_prefix isBlank (trimStart t)
  rw [← trimEnd_eq_rdropWhile] at htail
  cases hend : trimEnd (trimStart t) with
  | nil => rfl
  | cons c rest =>
    have hhead : (trimStart t).head? = some c := by rw [← htail, hend]; rfl
    have hblank : isBlank c = false := by
      have hnot := List.head?_dropWhile_not isBlank t
      rw [show t.dropWhile isBlank = trimStart t from rfl, hhead] at hnot
      simpa using hnot
    simp [trimStart, hblank]

@[simp] theorem trim_trim (t : Text) : trim (trim t) = trim t := by
  unfold trim
  rw [trimStart_trimEnd_trimStart, trimEnd_eq_rdropWhile, trimEnd_eq_rdropWhile,
    List.rdropWhile_idempotent]

theorem trim_isInfix (t : Text) : trim t <:+: t :=
  (List.rdropWhile_prefix isBlank (trimStart t)).isInfix.trans (List.dropWhile_suffix _).isInfix

theorem not_mem_trim {t : Text} {c : Char} (hc : c ∉ t) : c ∉ trim t :=
  fun hmem => hc ((trim_isInfix t).subset hmem)

theorem trim_eq_nil_iff {t : Text} : trim t = [] ↔ ∀ c ∈ t, isBlank c := by
  unfold trim trimStart
  rw [trimEnd_eq_rdropWhile, List.rdropWhile_eq_nil_iff]
  constructor
  · intro hrest c hc
    rw [← List.takeWhile_append_dropWhile (p := isBlank) (l := t)] at hc
    obtain hlead | htail := List.mem_append.mp hc
    · exact List.mem_takeWhile_imp hlead
    · exact hrest c htail
  · exact fun hall c hc => hall c ((List.dropWhile_suffix _).subset hc)

/-- Trimming takes nothing from a text that has no blank at either end. -/
theorem trim_eq_self {t : Text} (hfirst : ∀ c ∈ t.head?, isBlank c = false)
    (hlast : ∀ c ∈ t.getLast?, isBlank c = false) : trim t = t := by
  cases t with
  | nil => rfl
  | cons c rest =>
    rw [trim, trimStart, List.dropWhile_cons_of_neg (by simp [hfirst c rfl]), trimEnd_eq_rdropWhile,
      List.rdropWhile_eq_self_iff]
    intro hne
    simp [hlast _ (List.getLast?_eq_some_getLast hne)]

end ViewMarkup.Text
