import ViewMarkup.Proofs.Json.Grammar

namespace ViewMarkup.Json

/-- A text that spells a value between blanks. -/
def Document (t : Text) (value : Json) : Prop :=
  ∃ element : Element, element.spelling = t ∧ element.value = value ∧ Spelled element.text element.value

theorem exists_gap (t : Text) : ∃ gap : Gap, t = gap.chars ++ skipBlanks t :=
  ⟨⟨t.takeWhile isGap, fun _ => List.mem_takeWhile_imp⟩, List.takeWhile_append_dropWhile.symm⟩

theorem spelled_of_scanScalar {t rest : Text} {value : Json} (hscan : scanScalar t = .ok (value, rest)) :
    ∃ used, t = used ++ rest ∧ Spelled used value := by
  unfold scanScalar at hscan
  split at hscan
  · rename_i found hfound
    cases hscan
    obtain ⟨word, hword, hafter⟩ := List.exists_of_findSome?_eq_some hfound
    obtain ⟨tail, hafter, heq⟩ := Option.map_eq_some_iff.mp hafter
    cases heq
    exact ⟨word.1, Text.after?_eq_some_iff.mp hafter, .word hword⟩
  · obtain ⟨used, rfl, hnumber⟩ := number_of_scanNumber hscan
    exact ⟨used, rfl, .number hnumber⟩

/-- A text that spells the items of an array from one on, and the closing bracket, behind any blanks. -/
def SpelledItems (before : List Json) (t rest : Text) (value : Json) : Prop :=
  ∀ gap : Gap, ∃ item items,
    gap.chars ++ t = item.spelling ++ (others (items.map Element.spelling) ++ ']' :: rest) ∧
      value = .array (before.reverse ++ (item :: items).map Element.value) ∧
      ∀ element ∈ item :: items, Spelled element.text element.value

/-- A text that spells the members of an object from one on, and the closing brace, behind any blanks. -/
def SpelledMembers (before : Fields Json) (t rest : Text) (value : Json) : Prop :=
  ∀ gap : Gap, ∃ member members,
    gap.chars ++ t = member.spelling ++ (others (members.map Member.spelling) ++ '\x7d' :: rest) ∧
      value = .object (((member :: members).map Member.field).foldl
        (fun fields field => Fields.put field.1 field.2 fields) before) ∧
      ∀ entry ∈ member :: members, Spelled entry.element.text entry.element.value

section Nested

variable {fuel : Nat}
  (hvalue : ∀ {t rest value}, scanValue fuel t = .ok (value, rest) → ∃ used, t = used ++ rest ∧ Spelled used value)
  (hitems : ∀ {before t rest value}, scanItems fuel before t = .ok (value, rest) → SpelledItems before t rest value)
  (hmembers : ∀ {before t rest value}, scanMembers fuel before t = .ok (value, rest) →
    SpelledMembers before t rest value)

include hitems hmembers in
theorem spelled_of_scanValue_succ {t rest : Text} {value : Json} (hscan : scanValue (fuel + 1) t = .ok (value, rest)) :
    ∃ used, t = used ++ rest ∧ Spelled used value := by
  unfold scanValue at hscan
  split at hscan
  · contradiction
  · rename_i tail _
    cases hstring : scanString ('"' :: tail) [] 0 tail with
    | error stop =>
      rw [hstring] at hscan
      cases hscan
    | ok found =>
      rw [hstring] at hscan
      cases hscan
      obtain ⟨body, chars, rfl, hchars, hquoted⟩ := quoted_of_scanString hstring
      rw [show found.1 = chars from hchars]
      exact ⟨'"' :: (body ++ ['"']), by simp, .string hquoted⟩
  · rename_i n tail heq
    cases heq
    obtain ⟨gap, hgap⟩ := exists_gap tail
    split at hscan
    · rename_i hskip
      cases hscan
      exact ⟨_, by rw [hgap, hskip]; simp, .emptyArray gap⟩
    · obtain ⟨item, items, htail, rfl, hspelled⟩ := hitems hscan gap
      exact ⟨_, by rw [hgap, htail]; simp, .array hspelled⟩
  · rename_i n tail heq
    cases heq
    obtain ⟨gap, hgap⟩ := exists_gap tail
    split at hscan
    · rename_i hskip
      cases hscan
      exact ⟨_, by rw [hgap, hskip]; simp, .emptyObject gap⟩
    · obtain ⟨member, members, htail, rfl, hspelled⟩ := hmembers hscan gap
      exact ⟨_, by rw [hgap, htail]; simp, .object hspelled⟩
  · exact spelled_of_scanScalar hscan

include hvalue hitems in
theorem spelled_of_scanItems_succ {before : List Json} {t rest : Text} {value : Json}
    (hscan : scanItems (fuel + 1) before t = .ok (value, rest)) : SpelledItems before t rest value := by
  intro gap
  unfold scanItems at hscan
  split at hscan
  · cases hscan
  rename_i first tail hfirst
  obtain ⟨used, rfl, hspelled⟩ := hvalue hfirst
  obtain ⟨after, hafter⟩ := exists_gap tail
  split at hscan
  · rename_i hskip
    cases hscan
    refine ⟨⟨gap, used, after, first⟩, [], ?_, by simp, by simpa using hspelled⟩
    rw [hafter, hskip]
    simp [Element.spelling, others]
  · rename_i more hskip
    obtain ⟨between, hbetween⟩ := exists_gap more
    obtain ⟨next, items, hmore, rfl, hitems⟩ := hitems hscan between
    refine ⟨⟨gap, used, after, first⟩, next :: items, ?_, by simp, List.forall_mem_cons.mpr ⟨hspelled, hitems⟩⟩
    rw [hafter, hskip, hbetween, hmore]
    simp [Element.spelling, others]
  · cases hscan

include hvalue hmembers in
theorem spelled_of_scanMembers_succ {before : Fields Json} {t rest : Text} {value : Json}
    (hscan : scanMembers (fuel + 1) before t = .ok (value, rest)) : SpelledMembers before t rest value := by
  intro gap
  unfold scanMembers at hscan
  split at hscan
  · contradiction
  · rename_i n tail heq
    cases heq
    split at hscan
    · cases hscan
    rename_i name tail' hstring
    obtain ⟨quoted, chars, rfl, hchars, hquoted⟩ := quoted_of_scanString hstring
    obtain rfl : name = chars := hchars
    obtain ⟨after, hafter⟩ := exists_gap tail'
    split at hscan
    · rename_i behind hcolon
      obtain ⟨before', hbefore'⟩ := exists_gap behind
      split at hscan
      · cases hscan
      rename_i first tail hfirst
      obtain ⟨used, hused, hspelled⟩ := hvalue hfirst
      obtain ⟨after', hafter'⟩ := exists_gap tail
      have hmember (end' : Text) (hend : skipBlanks tail = end') : gap.chars ++ '"' :: (quoted ++ '"' :: tail') =
          Member.spelling ⟨gap, quoted, name, hquoted, after, ⟨before', used, after', first⟩⟩ ++ end' := by
        rw [hafter, hcolon, hbefore', hused, hafter', hend]
        simp [Member.spelling, Element.spelling]
      split at hscan
      · rename_i hend
        cases hscan
        exact ⟨_, [], hmember _ hend, rfl, by simpa using hspelled⟩
      · rename_i more hend
        obtain ⟨between, hbetween⟩ := exists_gap more
        obtain ⟨next, members, hmore, rfl, hmembers⟩ := hmembers hscan between
        refine ⟨⟨gap, quoted, name, hquoted, after, ⟨before', used, after', first⟩⟩, next :: members,
          (hmember _ hend).trans ?_, rfl, List.forall_mem_cons.mpr ⟨hspelled, hmembers⟩⟩
        rw [hbetween, hmore, List.map_cons, others_cons, List.cons_append, List.append_assoc]
      · cases hscan
    · cases hscan
  · cases hscan

end Nested

/-- The three scans of nested values together, by the number of values that they may still read. -/
theorem spelled_of_scan (fuel : Nat) :
    (∀ {t rest value}, scanValue fuel t = .ok (value, rest) → ∃ used, t = used ++ rest ∧ Spelled used value) ∧
    (∀ {before t rest value}, scanItems fuel before t = .ok (value, rest) → SpelledItems before t rest value) ∧
    ∀ {before t rest value}, scanMembers fuel before t = .ok (value, rest) → SpelledMembers before t rest value := by
  induction fuel with
  | zero => exact ⟨fun hscan => (nomatch hscan), fun hscan => (nomatch hscan), fun hscan => (nomatch hscan)⟩
  | succ fuel ih =>
    obtain ⟨hvalue, hitems, hmembers⟩ := ih
    exact ⟨spelled_of_scanValue_succ hitems hmembers, spelled_of_scanItems_succ hvalue hitems,
      spelled_of_scanMembers_succ hvalue hmembers⟩

theorem read_eq_ok_iff_scanDocument {t : Text} {value : Json} :
    read t = .ok value ↔ scanDocument t = .ok value := by
  unfold read
  cases scanDocument t with
  | ok found => simp [Except.mapError]
  | error stop => simp [Except.mapError]

theorem document_of_scanDocument {t : Text} {value : Json} (hscan : scanDocument t = .ok value) : Document t value := by
  unfold scanDocument at hscan
  split at hscan
  · cases hscan
  split at hscan
  · cases hscan
  rename_i found rest hfound
  split at hscan
  · rename_i hend
    cases hscan
    obtain ⟨before, hbefore⟩ := exists_gap t
    obtain ⟨used, hused, hspelled⟩ := (spelled_of_scan _).1 hfound
    obtain ⟨after, hafter⟩ := exists_gap rest
    rw [hend, List.append_nil] at hafter
    refine ⟨⟨before, used, after, value⟩, ?_, rfl, hspelled⟩
    rw [Element.spelling, ← hafter, ← hused, ← hbefore]
  · cases hscan

/-- Blanks or the value itself stand first. -/
theorem Scans.head_spelling {element : Element} (hscans : Scans element.text element.value) :
    ∀ c ∈ element.spelling.head?, isGap c ∨ c ∈ openers := by
  intro c hc
  obtain ⟨⟨chars, hblank⟩, text, after, value⟩ := element
  cases chars with
  | nil =>
    obtain ⟨d, tail, rfl, hd⟩ := hscans.head
    cases hc
    exact .inr hd
  | cons d chars =>
    cases hc
    exact .inl (hblank c List.mem_cons_self)

theorem scanDocument_of_document {t : Text} {value : Json} (hdocument : Document t value) :
    scanDocument t = .ok value := by
  obtain ⟨element, rfl, rfl, hspelled⟩ := hdocument
  have hscans := hspelled.scans
  have hfuel : element.text.length ≤ 2 * element.spelling.length + 2 := by
    have hlength := element.length_text_le
    omega
  have hskip := hscans.skipBlanks_spelling []
  rw [List.append_nil, List.append_nil] at hskip
  have hend : skipBlanks element.after.chars = [] :=
    List.dropWhile_eq_nil_iff.mpr element.after.blank
  have hcloses : Closes element.after.chars := by
    simpa using (show Closes [] from fun c hc => nomatch hc).gap element.after
  rw [scanDocument]
  · rw [hskip, hscans.scan _ _ hfuel hcloses]
    dsimp only
    rw [hend]
  · intro tail heq
    obtain hgap | hopener := hscans.head_spelling '\ufeff' (by rw [heq]; rfl)
    · cases hgap
    · exact absurd hopener (by decide)

/-- A text is read as a value exactly if it spells the value between blanks. -/
theorem read_eq_ok_iff {t : Text} {value : Json} : read t = .ok value ↔ Document t value :=
  read_eq_ok_iff_scanDocument.trans ⟨document_of_scanDocument, scanDocument_of_document⟩

end ViewMarkup.Json
