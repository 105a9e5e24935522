import ViewMarkup.Proofs.Text.Scan
import ViewMarkup.React.Literal

namespace ViewMarkup

/-- A text in which some number of digits follow each other. -/
def Text.HasDigits (count : Nat) (t : Text) : Prop :=
  ∃ run, run <:+: t ∧ run.length = count ∧ ∀ c ∈ run, c.isDigit

namespace Text.HasDigits

variable {count : Nat} {s t : Text}

theorem mono (hdigits : HasDigits count s) (hpart : s <:+: t) : HasDigits count t := by
  obtain ⟨run, hrun, hlength, hall⟩ := hdigits
  exact ⟨run, hrun.trans hpart, hlength, hall⟩

theorem le_length (hdigits : HasDigits count t) : count ≤ t.length := by
  obtain ⟨run, hrun, rfl, _⟩ := hdigits
  exact hrun.length_le

/-- Exchanging quotes makes no digits. -/
theorem of_replaceChar (hdigits : HasDigits count (replaceChar '\'' '"' t)) : HasDigits count t := by
  obtain ⟨run, hrun, hlength, hall⟩ := hdigits
  obtain ⟨source, hsource, rfl⟩ := List.infix_map_iff.mp hrun
  refine ⟨source, hsource, by simpa using hlength, fun c hc => ?_⟩
  have hdigit := hall _ (List.mem_map_of_mem hc)
  by_cases hquote : c = '\''
  · rw [if_pos hquote] at hdigit
    cases hdigit
  · rwa [if_neg hquote] at hdigit

end Text.HasDigits

namespace Json

/-- What the scan of a text may give: it leaves an end of the text, and an integer that it refuses is
there, with more digits than are read. -/
def Within {α : Type} (t : Text) : Scan α → Prop
  | .ok (_, rest) => rest <:+ t
  | .error (.integerTooLong digits) => integerDigitLimit < digits ∧ Text.HasDigits digits t
  | .error (.fault ..) => True

theorem Within.mono {α : Type} {s t : Text} {scan : Scan α} (hwithin : Within s scan) (hsuffix : s <:+ t) :
    Within t scan := by
  match scan, hwithin with
  | .ok (_, rest), hrest => exact List.IsSuffix.trans hrest hsuffix
  | .error (.integerTooLong digits), ⟨hlimit, hdigits⟩ => exact ⟨hlimit, hdigits.mono hsuffix.isInfix⟩
  | .error (.fault ..), _ => trivial

/-- A scan that stopped may stand for any other. -/
theorem Within.error {α β : Type} {t : Text} {stop : Stop} (hwithin : Within t (.error stop : Scan α)) :
    Within t (.error stop : Scan β) := by
  cases stop with
  | fault => trivial
  | integerTooLong digits => exact hwithin

theorem skipBlanks_suffix (t : Text) : skipBlanks t <:+ t :=
  List.dropWhile_suffix _

/-- An escape never holds an integer. -/
theorem scanEscape_fault {opening t : Text} {stop : Stop} (hscan : scanEscape opening t = .error stop) :
    ∃ fault rest, stop = .fault fault rest := by
  unfold scanEscape at hscan
  split at hscan
  case h_2 digits =>
    unfold scanUnit at hscan
    repeat' split at hscan
    all_goals cases hscan
    all_goals exact ⟨_, _, rfl⟩
  all_goals cases hscan
  all_goals exact ⟨_, _, rfl⟩

theorem scanString_within (opening chars : Text) (skip : Nat) (t : Text) :
    Within t (scanString opening chars skip t) := by
  induction t generalizing chars skip with
  | nil => cases skip <;> trivial
  | cons c rest ih =>
    have hrest : rest <:+ c :: rest := List.suffix_cons c rest
    cases skip with
    | succ skip => exact (ih chars skip).mono hrest
    | zero =>
      unfold scanString
      split
      · exact hrest
      split
      · cases hescape : scanEscape opening rest with
        | error stop =>
          obtain ⟨fault, left, rfl⟩ := scanEscape_fault hescape
          trivial
        | ok escape => exact (ih _ _).mono hrest
      split
      · trivial
      · exact (ih _ _).mono hrest

theorem exponent?_suffix {isAllowed : Char → Bool} {t rest : Text} {exponent : Int}
    (hexponent : exponent? isAllowed t = some (exponent, rest)) : rest <:+ t := by
  unfold exponent? at hexponent
  split at hexponent
  · rename_i mark tail
    split at hexponent
    · split at hexponent
      rename_i negative digits hsigned
      have hdigits : digits <:+ tail := by
        split at hsigned <;> cases hsigned
        · exact List.suffix_cons _ _
        · exact List.suffix_cons _ _
        · exact List.suffix_rfl
      split at hexponent
      · cases hexponent
      · cases hexponent
        exact ((List.drop_suffix _ _).trans hdigits).trans (List.suffix_cons mark tail)
    · cases hexponent
  · cases hexponent

theorem wholeDigits_isPrefix (t : Text) : wholeDigits t <+: t := by
  unfold wholeDigits
  split
  · exact ⟨_, rfl⟩
  · exact List.takeWhile_prefix _

theorem isDigit_of_mem_wholeDigits {t : Text} {c : Char} (hc : c ∈ wholeDigits t) : c.isDigit := by
  unfold wholeDigits at hc
  split at hc
  · obtain rfl := List.mem_singleton.mp hc
    rfl
  · exact List.mem_takeWhile_imp hc

/-- A number is refused only as an integer, whose digits stand in the text. -/
theorem scanNumber_within (t : Text) : Within t (scanNumber t) := by
  unfold scanNumber
  split
  rename_i negative body hsigned
  have hbody : body <:+ t := by
    split at hsigned <;> cases hsigned
    · exact List.suffix_cons _ _
    · exact List.suffix_rfl
  split
  · trivial
  · dsimp only
    have hrest : (if (fractionDigits (body.drop (wholeDigits body).length)).isEmpty then
        body.drop (wholeDigits body).length
      else (body.drop (wholeDigits body).length).drop
        ((fractionDigits (body.drop (wholeDigits body).length)).length + 1)) <:+ t := by
      refine List.IsSuffix.trans ?_ hbody
      split
      · exact List.drop_suffix _ _
      · exact (List.drop_suffix _ _).trans (List.drop_suffix _ _)
    split
    · rename_i exponent rest hexponent
      exact (exponent?_suffix hexponent).trans hrest
    split
    · exact hrest
    split
    · rename_i hlimit
      exact ⟨hlimit, wholeDigits body, (wholeDigits_isPrefix body).isInfix.trans hbody.isInfix, rfl,
        fun c => isDigit_of_mem_wholeDigits⟩
    · exact hrest

theorem scanScalar_within (t : Text) : Within t (scanScalar t) := by
  unfold scanScalar
  split
  · rename_i found hfound
    obtain ⟨word, _, hword⟩ := List.exists_of_findSome?_eq_some hfound
    obtain ⟨rest, hafter, rfl⟩ := Option.map_eq_some_iff.mp hword
    exact ⟨word.1, (Text.after?_eq_some_iff.mp hafter).symm⟩
  · exact scanNumber_within t

/-- What is left after blanks and one more character. -/
theorem suffix_of_skipBlanks {s t rest : Text} {c : Char} (hrest : skipBlanks s = c :: rest) (hs : s <:+ t) :
    rest <:+ t := by
  have hskipped := skipBlanks_suffix s
  rw [hrest] at hskipped
  exact ((List.suffix_cons c rest).trans hskipped).trans hs

section Nested

variable {fuel : Nat} (hvalue : ∀ t, Within t (scanValue fuel t))
  (hitems : ∀ items t, Within t (scanItems fuel items t))
  (hmembers : ∀ members t, Within t (scanMembers fuel members t))

include hitems hmembers in
theorem scanValue_within (t : Text) : Within t (scanValue (fuel + 1) t) := by
  unfold scanValue
  split
  · contradiction
  · rename_i rest _
    have hstring := (scanString_within ('"' :: rest) [] 0 rest).mono (List.suffix_cons '"' rest)
    revert hstring
    cases scanString ('"' :: rest) [] 0 rest with
    | error stop => exact Within.error
    | ok found => exact id
  · rename_i n rest heq
    cases heq
    have hrest := List.suffix_cons '[' rest
    split
    · rename_i hblanks
      exact suffix_of_skipBlanks hblanks hrest
    · exact ((hitems _ _).mono (skipBlanks_suffix rest)).mono hrest
  · rename_i n rest heq
    cases heq
    have hrest := List.suffix_cons '\x7b' rest
    split
    · rename_i hblanks
      exact suffix_of_skipBlanks hblanks hrest
    · exact ((hmembers _ _).mono (skipBlanks_suffix rest)).mono hrest
  · exact scanScalar_within _

include hvalue hitems in
theorem scanItems_within (items : List Json) (t : Text) : Within t (scanItems (fuel + 1) items t) := by
  unfold scanItems
  have hitem := hvalue t
  revert hitem
  cases scanValue fuel t with
  | error stop => exact Within.error
  | ok found =>
    obtain ⟨item, rest⟩ := found
    intro hrest
    dsimp only
    split
    · rename_i hblanks
      exact suffix_of_skipBlanks hblanks hrest
    · rename_i hblanks
      exact (hitems _ _).mono ((skipBlanks_suffix _).trans (suffix_of_skipBlanks hblanks hrest))
    · trivial

include hvalue hmembers in
theorem scanMembers_within (members : Fields Json) (t : Text) :
    Within t (scanMembers (fuel + 1) members t) := by
  unfold scanMembers
  split
  · contradiction
  · rename_i n tail heq
    cases heq
    have hname := (scanString_within ('"' :: tail) [] 0 tail).mono (List.suffix_cons '"' tail)
    revert hname
    cases scanString ('"' :: tail) [] 0 tail with
    | error stop => exact Within.error
    | ok found =>
      obtain ⟨name, rest⟩ := found
      intro hname
      dsimp only
      split
      · rename_i colon hcolon
        have hcolon' := suffix_of_skipBlanks hcolon hname
        have hmember := (hvalue (skipBlanks colon)).mono ((skipBlanks_suffix colon).trans hcolon')
        revert hmember
        cases scanValue fuel (skipBlanks colon) with
        | error stop => exact Within.error
        | ok found =>
          obtain ⟨value, rest⟩ := found
          intro hrest
          dsimp only
          split
          · rename_i hblanks
            exact suffix_of_skipBlanks hblanks hrest
          · rename_i hblanks
            exact (hmembers _ _).mono ((skipBlanks_suffix _).trans (suffix_of_skipBlanks hblanks hrest))
          · trivial
      · trivial
  · trivial

end Nested

/-- The three scans of nested values together, by the number of values that they may still read. -/
theorem scan_within (fuel : Nat) :
    (∀ t, Within t (scanValue fuel t)) ∧ (∀ items t, Within t (scanItems fuel items t)) ∧
      ∀ members t, Within t (scanMembers fuel members t) := by
  induction fuel with
  | zero => exact ⟨fun _ => trivial, fun _ _ => trivial, fun _ _ => trivial⟩
  | succ fuel ih =>
    obtain ⟨hvalue, hitems, hmembers⟩ := ih
    exact ⟨scanValue_within hitems hmembers, scanItems_within hvalue hitems,
      scanMembers_within hvalue hmembers⟩

/-- An integer is refused only if it has more digits than are read, and they stand in the text. -/
theorem hasDigits_of_read {t : Text} {digits : Nat} (hread : read t = .error (.integerTooLong digits)) :
    integerDigitLimit < digits ∧ Text.HasDigits digits t := by
  have hdocument : scanDocument t = .error (.integerTooLong digits) := by
    unfold read at hread
    cases hscan : scanDocument t with
    | ok value => simp [hscan, Except.mapError] at hread
    | error stop =>
      cases stop with
      | fault kind rest => simp [hscan, Except.mapError, Stop.toError] at hread
      | integerTooLong count =>
        rw [hscan] at hread
        cases hread
        rfl
  unfold scanDocument at hdocument
  split at hdocument
  · cases hdocument
  · have hvalue := (scan_within (2 * t.length + 2)).1 (skipBlanks t)
    split at hdocument
    · rename_i hscan
      cases hdocument
      rw [hscan] at hvalue
      exact hvalue.mono (skipBlanks_suffix t)
    · split at hdocument <;> cases hdocument

end Json

/-- The seed of a fetch is refused only for a long integer in it. -/
theorem React.InitialState.hasDigits_of_ofSeed {seed : Text} {error : JsonError}
    (hseed : ofSeed seed = .error error) :
    ∃ digits, error = .integerTooLong digits ∧ integerDigitLimit < digits ∧ Text.HasDigits digits seed := by
  unfold ofSeed at hseed
  dsimp only at hseed
  split at hseed
  · cases hseed
  split at hseed
  · cases hseed
  split at hseed
  · cases hseed
  · rename_i digits hread
    cases hseed
    obtain ⟨hlimit, hdigits⟩ := Json.hasDigits_of_read hread
    exact ⟨digits, rfl, hlimit, hdigits.of_replaceChar.mono (Text.trim_isInfix seed)⟩
  · cases hseed

end ViewMarkup
