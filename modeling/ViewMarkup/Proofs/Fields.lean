import Mathlib.Data.List.Basic
import ViewMarkup.Fields

namespace ViewMarkup.Fields

variable {α : Type}

theorem put_of_not_mem {name : Text} (value : α) {fields : Fields α} (hnew : name ∉ fields.map Prod.fst) :
    put name value fields = fields ++ [(name, value)] := by
  induction fields with
  | nil => rfl
  | cons field fields ih =>
    simp only [List.map_cons, List.mem_cons, not_or] at hnew
    rw [put, if_neg (Ne.symm hnew.1), ih hnew.2, List.cons_append]

theorem foldl_put_of_nodup {pairs : List (Text × α)} {fields : Fields α}
    (hnodup : ((fields ++ pairs).map Prod.fst).Nodup) :
    pairs.foldl (fun fields pair => put pair.1 pair.2 fields) fields = fields ++ pairs := by
  induction pairs generalizing fields with
  | nil => simp
  | cons pair pairs ih =>
    have hnew : pair.1 ∉ fields.map Prod.fst := by
      rw [List.map_append, List.map_cons, List.nodup_append] at hnodup
      exact fun hmem => hnodup.2.2 _ hmem _ List.mem_cons_self rfl
    rw [List.foldl_cons, put_of_not_mem pair.2 hnew, ih]
    · simp
    · simpa using hnodup

/-- Pairs with distinct names are the fields. -/
theorem ofPairs_of_nodup {pairs : List (Text × α)} (hnodup : (pairs.map Prod.fst).Nodup) : ofPairs pairs = pairs :=
  foldl_put_of_nodup hnodup

end ViewMarkup.Fields
