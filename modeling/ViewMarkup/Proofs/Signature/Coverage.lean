import ViewMarkup.Proofs.Line.Faults
import ViewMarkup.Proofs.Signature.Separators

namespace ViewMarkup

/-- Trimming takes only blanks away. -/
theorem Text.index_mem_trim {t : Text} {i : Nat} {c : Char} (hc : t[i]? = some c) (hblank : isBlank c = false) :
    indent t ≤ i ∧ i < indent t + (trim t).length := by
  obtain ⟨trail, htrail, ht⟩ := exists_blanks t
  have hlead : (t.takeWhile isBlank).length = indent t := rfl
  by_contra hout
  have hmem : c ∈ t.takeWhile isBlank ∨ c ∈ trail := by
    rw [ht, List.append_assoc] at hc
    by_cases hbefore : i < indent t
    · left
      rw [List.getElem?_append_left (by omega)] at hc
      exact List.mem_of_getElem? hc
    · right
      rw [List.getElem?_append_right (by omega), List.getElem?_append_right (by omega)] at hc
      exact List.mem_of_getElem? hc
  obtain hmem | hmem := hmem
  · simp [List.mem_takeWhile_imp hmem] at hblank
  · simp [htrail c hmem] at hblank

namespace ParameterEntry

/-- The entry stands in the list at its column, and the character at an index belongs to it. -/
structure Holds (list : Text) (i : Nat) (entry : ParameterEntry) : Prop where
  stands : Text.slice entry.start (entry.start + entry.text.length) list = entry.text
  start_le : entry.start ≤ i
  lt_stop : i < entry.start + entry.text.length

/-- In a list without separators whose brackets are closed, each character belongs to the entry. -/
theorem exists_mem_scan_of_closed (column : Nat) {t : Text} (hunsplit : Unsplit 0 t) (hclosed : openAfter 0 t = 0)
    {i : Nat} {c : Char} (hc : t[i]? = some c) (hblank : isBlank c = false) :
    ∃ entry ∈ scan column 0 [] t, entry.start ≤ column + i ∧ column + i < entry.start + entry.text.length := by
  have hinside := Text.index_mem_trim hc hblank
  have hne : Text.trim t ≠ [] := by
    intro hnil
    rw [hnil, List.length_nil] at hinside
    omega
  rw [scan_of_closed hunsplit hclosed, if_neg hne]
  refine ⟨_, List.mem_singleton_self _, ?_, ?_⟩ <;> dsimp only <;> omega

/-- A character belongs to an entry exactly if a separator follows it or all brackets are closed at the end. -/
theorem exists_mem_scan_iff (column : Nat) (t : Text) {i : Nat} {c : Char} (hc : t[i]? = some c)
    (hblank : isBlank c = false) (hplain : ¬ IsSeparator 0 t i) :
    (∃ entry ∈ scan column 0 [] t,
      entry.start ≤ column + i ∧ column + i < entry.start + entry.text.length) ↔
      openAfter 0 t = 0 ∨ ∃ j, i < j ∧ IsSeparator 0 t j := by
  induction t using separatorInduction generalizing column i with
  | unsplit t hunsplit =>
    by_cases hclosed : openAfter 0 t = 0
    · exact iff_of_true (exists_mem_scan_of_closed column hunsplit hclosed hc hblank) (.inl hclosed)
    · rw [scan_of_unsplit hunsplit, if_neg hclosed]
      refine iff_of_false (by simp) ?_
      rintro (hclosed' | ⟨j, _, hseparator⟩)
      · exact hclosed hclosed'
      · exact hunsplit j hseparator
  | comma first rest hclosed hunsplit ih =>
    rw [scan_append_comma hclosed, openAfter_append_comma hclosed]
    by_cases hbefore : i < first.length
    · rw [List.getElem?_append_left hbefore] at hc
      obtain ⟨entry, hentry, hholds⟩ := exists_mem_scan_of_closed column hunsplit hclosed hc hblank
      exact iff_of_true ⟨entry, List.mem_append_left _ hentry, hholds⟩
        (.inr ⟨first.length, hbefore, isSeparator_length hclosed⟩)
    · have hafter : first.length < i := by
        refine lt_of_le_of_ne (Nat.not_lt.mp hbefore) ?_
        rintro rfl
        exact hplain (isSeparator_length hclosed)
      obtain ⟨j, rfl⟩ := Nat.exists_eq_add_of_lt hafter
      rw [Nat.add_assoc, List.getElem?_append_right (by omega), Nat.add_sub_cancel_left] at hc
      rw [isSeparator_append_comma hclosed] at hplain
      -- no entry of the first part reaches behind the comma, so the rest alone decides
      have hentries : (∃ entry ∈ scan column 0 [] first ++ scan (column + first.length + 1) 0 [] rest,
          entry.start ≤ column + (first.length + j + 1) ∧
            column + (first.length + j + 1) < entry.start + entry.text.length) ↔
          ∃ entry ∈ scan (column + first.length + 1) 0 [] rest,
            entry.start ≤ column + first.length + 1 + j ∧
              column + first.length + 1 + j < entry.start + entry.text.length := by
        constructor
        · rintro ⟨entry, hentry, hstart, hstop⟩
          obtain hentry | hentry := List.mem_append.mp hentry
          · have hwithin := within_of_mem_scan hentry
            omega
          · exact ⟨entry, hentry, by omega, by omega⟩
        · rintro ⟨entry, hentry, hstart, hstop⟩
          exact ⟨entry, List.mem_append_right _ hentry, by omega, by omega⟩
      rw [hentries, ih _ hc hplain]
      refine or_congr_right ⟨?_, ?_⟩
      · rintro ⟨k, hk, hseparator⟩
        exact ⟨first.length + k + 1, by omega, (isSeparator_append_comma hclosed k).mpr hseparator⟩
      · rintro ⟨k, hk, hseparator⟩
        obtain ⟨k, rfl⟩ := Nat.exists_eq_add_of_lt (show first.length < k by omega)
        exact ⟨k, by omega, (isSeparator_append_comma hclosed k).mp hseparator⟩

theorem slice_of_mem_split {list : Text} {entry : ParameterEntry} (hentry : entry ∈ split list) :
    Text.slice entry.start (entry.start + entry.text.length) list = entry.text := by
  obtain ⟨_, start, hstart, hstands⟩ := (pieces_split list).stands _ (List.mem_map_of_mem hentry)
  obtain rfl : entry.start = start := by
    simp only [piece] at hstart
    omega
  exact Text.slice_of_prefix hstands

/-- Of two entries at most one holds a character: they are apart. -/
theorem eq_of_mem_split {list : Text} {i : Nat} {entry other : ParameterEntry} (hentry : entry ∈ split list)
    (hother : other ∈ split list) (hholds : entry.Holds list i) (hholds' : other.Holds list i) : entry = other := by
  have hapart : (split list).Pairwise fun first second => first.start + first.text.length < second.start := by
    refine (List.pairwise_map.mp (pieces_split list).apart).imp fun {first second} hapart => ?_
    simp only [piece] at hapart
    omega
  have hstart := hholds.start_le
  have hstop := hholds.lt_stop
  have hstart' := hholds'.start_le
  have hstop' := hholds'.lt_stop
  obtain ⟨m, hm, rfl⟩ := List.getElem_of_mem hentry
  obtain ⟨n, hn, rfl⟩ := List.getElem_of_mem hother
  rw [List.pairwise_iff_getElem] at hapart
  obtain hlt | rfl | hlt := lt_trichotomy m n
  · have hbetween := hapart m n hm hn hlt
    omega
  · rfl
  · have hbetween := hapart n m hn hm hlt
    omega

end ParameterEntry

namespace Signature

open ParameterEntry (IsSeparator openAfter)

theorem parameters_read {source name parameters : Text}
    (hparts : parts? (Text.trim source) = some (name, parameters)) (line : Int) :
    (read source line).1.parameters =
      (ParameterEntry.split parameters).filterMap fun entry => ParameterEntry.parameter? entry.text := by
  rw [read, hparts]
  dsimp only
  rw [List.filterMap_map]
  refine List.filterMap_congr fun entry _ => ?_
  rw [Function.comp_apply, readEntry]
  cases ParameterEntry.parameter? entry.text <;> rfl

/-- What is read of a line accounts for an entry of its list: the entry is a parameter, or a fault covers it. -/
def Accounts (column : Int) (outcome : Signature × List Diagnostic) (entry : ParameterEntry) : Prop :=
  (∃ parameter ∈ outcome.1.parameters, ParameterEntry.parameter? entry.text = some parameter) ∨
    ∃ fault ∈ outcome.2, fault.code = .invalidPropDefinition ∧
      fault.range = Range.onLine 0 (column + entry.start) (column + entry.start + entry.text.length)

theorem accounts_of_mem_split {source name parameters : Text}
    (hparts : parts? (Text.trim source) = some (name, parameters)) {entry : ParameterEntry}
    (hentry : entry ∈ ParameterEntry.split parameters) :
    Accounts (Text.indent source + name.length + 1) (read source 0) entry := by
  cases hread : ParameterEntry.parameter? entry.text with
  | some parameter =>
    left
    refine ⟨parameter, ?_, hread⟩
    rw [parameters_read hparts]
    exact List.mem_filterMap.mpr ⟨entry, hentry, hread⟩
  | none =>
    right
    refine ⟨entry.fault (Text.indent source + name.length + 1), ?_, rfl, rfl⟩
    rw [read_faults hparts]
    exact List.mem_map_of_mem (List.mem_filter.mpr ⟨hentry, by rw [hread]; rfl⟩)

/-- A character of the parameter list that is neither blank nor a separator belongs to exactly one entry that is
read or reported, if a separator follows it or all brackets are closed at the end of the list, and only then. -/
theorem character_accounted_iff {source name parameters : Text}
    (hparts : parts? (Text.trim source) = some (name, parameters)) {i : Nat} {c : Char}
    (hc : parameters[i]? = some c) (hblank : isBlank c = false) (hplain : ¬ IsSeparator 0 parameters i) :
    (∃! entry, entry ∈ ParameterEntry.split parameters ∧ entry.Holds parameters i ∧
      Accounts (Text.indent source + name.length + 1) (read source 0) entry) ↔
      openAfter 0 parameters = 0 ∨ ∃ j, i < j ∧ IsSeparator 0 parameters j := by
  have hscan := ParameterEntry.exists_mem_scan_iff 0 parameters hc hblank hplain
  rw [Nat.zero_add] at hscan
  rw [← hscan]
  constructor
  · rintro ⟨entry, ⟨hentry, hholds, _⟩, _⟩
    exact ⟨entry, hentry, hholds.start_le, hholds.lt_stop⟩
  · rintro ⟨entry, hentry, hstart, hstop⟩
    have hholds : entry.Holds parameters i := ⟨ParameterEntry.slice_of_mem_split hentry, hstart, hstop⟩
    refine ⟨entry, ⟨hentry, hholds, accounts_of_mem_split hparts hentry⟩, ?_⟩
    rintro other ⟨hother, hholds', _⟩
    exact ParameterEntry.eq_of_mem_split hother hentry hholds' hholds

/-- A parameter list with a bracket that is not closed. -/
def openList : Text := "title:string, items<string"

def openSignature : Text := "Page(" ++ openList ++ ")"

/-- The first parameter is read; of the second one, in front of the open bracket as behind it, nothing is. -/
theorem character_accounted_iff_open :
    (∃! entry, entry ∈ ParameterEntry.split openList ∧ entry.Holds openList 0 ∧
      Accounts (Text.indent openSignature + "Page".toList.length + 1) (read openSignature 0) entry) ∧
    ¬ ∃! entry, entry ∈ ParameterEntry.split openList ∧ entry.Holds openList 14 ∧
      Accounts (Text.indent openSignature + "Page".toList.length + 1) (read openSignature 0) entry := by
  have hparts : parts? (Text.trim openSignature) = some ("Page".toList, openList) := by decide +kernel
  constructor
  · rw [character_accounted_iff hparts (show openList[0]? = some 't' by decide +kernel) (by decide +kernel)
      (by decide +kernel)]
    exact .inr ⟨12, by decide, by decide +kernel⟩
  · rw [character_accounted_iff hparts (show openList[14]? = some 'i' by decide +kernel) (by decide +kernel)
      (by decide +kernel)]
    rintro (hclosed | ⟨j, hj, hseparator⟩)
    · revert hclosed
      decide +kernel
    · have hlt : j < openList.length := (List.getElem?_eq_some_iff.mp hseparator.1).1
      have hall : ∀ j < openList.length, 14 < j → ¬ IsSeparator 0 openList j := by decide +kernel
      exact hall j hlt hj hseparator

/-- The parameter with the open bracket is neither read nor reported. -/
theorem open_bracket_drops_entry :
    parts? (Text.trim openSignature) = some ("Page".toList, openList) ∧
      read openSignature 0 = (⟨"Page", [⟨"title", "string", false⟩]⟩, []) ∧
      openList[14]? = some 'i' ∧ isBlank 'i' = false ∧ ¬ IsSeparator 0 openList 14 ∧
      ∀ entry ∈ ParameterEntry.split openList, ¬ entry.Holds openList 14 := by
  have hsplit : ParameterEntry.split openList = [⟨"title:string", 0⟩] := by decide +kernel
  refine ⟨by decide +kernel, by decide +kernel, by decide +kernel, by decide +kernel, by decide +kernel, ?_⟩
  rw [hsplit]
  refine List.forall_mem_singleton.mpr fun hholds => ?_
  have hlt : 14 < "title:string".toList.length := by simpa using hholds.lt_stop
  revert hlt
  decide +kernel

end Signature

end ViewMarkup
