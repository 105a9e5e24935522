import ViewMarkup.Proofs.Json.Integers
import ViewMarkup.Proofs.Numeral.Whole
import ViewMarkup.Proofs.Text.Words

namespace ViewMarkup.Json

/-- A character that may stand between the parts of a JSON text. -/
def isGap (c : Char) : Bool :=
  c == ' ' || c == '\t' || c == '\n' || c == '\r'

/-- The characters that may stand behind a value. -/
def closers : Text :=
  [' ', '\t', '\n', '\r', ',', ']', '\x7d']

/-- A text that may stand behind a value. -/
def Closes (rest : Text) : Prop :=
  ∀ c ∈ rest.head?, c ∈ closers

/-- The sign of a number. -/
def sign (negative : Bool) : Text :=
  if negative then ['-'] else []

/-- A fraction behind its point; without digits there is no point. -/
def point (fraction : Text) : Text :=
  if fraction.isEmpty then [] else '.' :: fraction

/-- A run of at least one digit. -/
structure Digits (t : Text) : Prop where
  ne_nil : t ≠ []
  isDigit : ∀ c ∈ t, c.isDigit

/-- The whole part of a number: digits that start with a zero only if there is no other. -/
structure Whole (t : Text) : Prop extends Digits t where
  leading : t.head? = some '0' → t = ['0']

/-- An exponent and its value. -/
inductive Exponent : Text → Int → Prop
  | plain {mark : Char} {digits : Text} (hmark : mark = 'e' ∨ mark = 'E') (hdigits : Digits digits) :
      Exponent (mark :: digits) (digitsValue digits)
  | plus {mark : Char} {digits : Text} (hmark : mark = 'e' ∨ mark = 'E') (hdigits : Digits digits) :
      Exponent (mark :: '+' :: digits) (digitsValue digits)
  | minus {mark : Char} {digits : Text} (hmark : mark = 'e' ∨ mark = 'E') (hdigits : Digits digits) :
      Exponent (mark :: '-' :: digits) (-digitsValue digits)

/-- A number and its value: a floating-point number if it has a fraction or an exponent. -/
inductive Number : Text → Json → Prop
  | int {negative : Bool} {whole : Text} (hwhole : Whole whole) (hlimit : whole.length ≤ integerDigitLimit) :
      Number (sign negative ++ whole) (.int (if negative then -digitsValue whole else digitsValue whole))
  | fraction {negative : Bool} {whole fraction : Text} (hwhole : Whole whole) (hfraction : Digits fraction) :
      Number (sign negative ++ (whole ++ point fraction))
        (.float (Binary64.ofDecimal negative (digitsValue (whole ++ fraction)) (0 - fraction.length)))
  | exponent {negative : Bool} {whole fraction mark : Text} {exponent : Int} (hwhole : Whole whole)
      (hfraction : ∀ c ∈ fraction, c.isDigit) (hexponent : Exponent mark exponent) :
      Number (sign negative ++ (whole ++ (point fraction ++ mark)))
        (.float (Binary64.ofDecimal negative (digitsValue (whole ++ fraction)) (exponent - fraction.length)))

theorem skipBlanks_eq (t : Text) : skipBlanks t = t.dropWhile isGap := rfl

/-- No character behind a value goes on with a number. -/
theorem Closes.head {rest : Text} (hrest : Closes rest) :
    ∀ c ∈ rest.head?, c.isDigit = false ∧ c ≠ '.' ∧ c ≠ 'e' ∧ c ≠ 'E' := by
  have hclosers : closers.all (fun c => !c.isDigit && c != '.' && c != 'e' && c != 'E') := by decide
  intro c hc
  simpa [and_assoc] using List.all_eq_true.mp hclosers c (hrest c hc)

theorem Digits.exists_cons {t : Text} (hdigits : Digits t) : ∃ c rest, t = c :: rest ∧ c.isDigit := by
  obtain ⟨hne, hdigits⟩ := hdigits
  cases t with
  | nil => exact absurd rfl hne
  | cons c rest => exact ⟨c, rest, rfl, hdigits c List.mem_cons_self⟩

theorem digits_of_takeWhile {t : Text} (hne : t.takeWhile Char.isDigit ≠ []) : Digits (t.takeWhile Char.isDigit) :=
  ⟨hne, fun _ => List.mem_takeWhile_imp⟩

theorem whole_of_wholeDigits {t : Text} (hne : wholeDigits t ≠ []) : Whole (wholeDigits t) := by
  refine ⟨⟨hne, fun _ => isDigit_of_mem_wholeDigits⟩, ?_⟩
  unfold wholeDigits
  split
  · exact fun _ => rfl
  · rename_i hzero
    intro hhead
    cases t with
    | nil => cases hhead
    | cons c rest =>
      rw [List.takeWhile_cons] at hhead
      split at hhead
      · exact absurd (by rw [Option.some.inj hhead]) (hzero rest)
      · cases hhead

theorem wholeDigits_append {whole rest : Text} (hwhole : Whole whole)
    (hrest : ∀ c ∈ rest.head?, c.isDigit = false) : wholeDigits (whole ++ rest) = whole := by
  obtain ⟨c, digits, rfl, -⟩ := hwhole.exists_cons
  by_cases hzero : c = '0'
  · rw [hwhole.leading (by rw [hzero]; rfl)]
    rfl
  · rw [wholeDigits]
    · exact Text.takeWhile_append_of_head hwhole.isDigit hrest
    · rintro tail heq
      exact hzero (List.cons.inj heq).1

theorem fractionDigits_point {fraction rest : Text} (hfraction : ∀ c ∈ fraction, c.isDigit)
    (hrest : ∀ c ∈ rest.head?, c.isDigit = false ∧ c ≠ '.') : fractionDigits (point fraction ++ rest) = fraction := by
  unfold point
  cases fraction with
  | nil =>
    cases rest with
    | nil => rfl
    | cons c rest =>
      obtain ⟨-, hpoint⟩ := hrest c rfl
      exact fractionDigits.eq_2 _ fun _ heq => hpoint (List.cons.inj heq).1
  | cons c fraction => exact Text.takeWhile_append_of_head hfraction fun c hc => (hrest c hc).1

/-- The digits of a fraction stand behind its point. -/
theorem point_append_fractionDigits (t : Text) :
    t = point (fractionDigits t) ++
      if (fractionDigits t).isEmpty then t else t.drop ((fractionDigits t).length + 1) := by
  by_cases hempty : (fractionDigits t).isEmpty
  · simp [point, hempty]
  · unfold fractionDigits at hempty ⊢
    split at hempty
    · rename_i rest
      rw [point, if_neg hempty, if_neg hempty, List.drop_succ_cons, List.cons_append,
        List.prefix_iff_eq_append.mp (List.takeWhile_prefix _)]
    · exact absurd rfl hempty

section Exponents

theorem exponent?_of_exponent {t rest : Text} {n : Int} (hexponent : Exponent t n)
    (hrest : ∀ c ∈ rest.head?, c.isDigit = false) : exponent? Char.isDigit (t ++ rest) = some (n, rest) := by
  have htake {digits : Text} (hdigits : Digits digits) : (digits ++ rest).takeWhile Char.isDigit = digits :=
    Text.takeWhile_append_of_head hdigits.isDigit hrest
  cases hexponent with
  | plain hmark hdigits =>
    obtain ⟨c, digits, rfl, hc⟩ := hdigits.exists_cons
    have hsign : c ≠ '-' ∧ c ≠ '+' := by constructor <;> (rintro rfl; cases hc)
    rw [List.cons_append, exponent?, if_pos hmark]
    · dsimp only
      rw [htake hdigits]
      simp
    · rintro tail heq
      exact hsign.1 (List.cons.inj heq).1
    · rintro tail heq
      exact hsign.2 (List.cons.inj heq).1
  | plus hmark hdigits | minus hmark hdigits =>
    obtain ⟨c, digits, rfl, -⟩ := hdigits.exists_cons
    simp only [List.cons_append, exponent?, if_pos hmark]
    rw [← List.cons_append, htake hdigits]
    simp

theorem exponent_of_exponent? {t rest : Text} {n : Int} (hexponent : exponent? Char.isDigit t = some (n, rest)) :
    ∃ used, t = used ++ rest ∧ Exponent used n := by
  unfold exponent? at hexponent
  split at hexponent
  · rename_i mark tail
    split at hexponent
    · rename_i hmark
      split at hexponent
      rename_i negative digits hsigned
      split at hexponent
      · cases hexponent
      · rename_i hne
        cases hexponent
        have hdigits := digits_of_takeWhile hne
        have hsplit : digits = digits.takeWhile Char.isDigit ++ digits.drop (digits.takeWhile Char.isDigit).length :=
          (List.prefix_iff_eq_append.mp (List.takeWhile_prefix _)).symm
        split at hsigned <;> cases hsigned
        · exact ⟨_, by rw [List.cons_append, List.cons_append, ← hsplit], .minus hmark hdigits⟩
        · exact ⟨_, by rw [List.cons_append, List.cons_append, ← hsplit], .plus hmark hdigits⟩
        · exact ⟨_, by rw [List.cons_append, ← hsplit], .plain hmark hdigits⟩
    · cases hexponent
  · cases hexponent

theorem exponent?_of_closes {rest : Text} (hrest : Closes rest) : exponent? Char.isDigit rest = none := by
  cases rest with
  | nil => rfl
  | cons c rest =>
    obtain ⟨-, -, hsmall, hlarge⟩ := hrest.head c rfl
    have hmark : ¬ (c = 'e' ∨ c = 'E') := by rintro (rfl | rfl) <;> contradiction
    unfold exponent?
    exact if_neg hmark

/-- An exponent starts with its mark. -/
theorem Exponent.head {t rest : Text} {n : Int} (hexponent : Exponent t n) :
    ∀ c ∈ (t ++ rest).head?, c.isDigit = false ∧ c ≠ '.' := by
  have hmarks {mark : Char} (hmark : mark = 'e' ∨ mark = 'E') : mark.isDigit = false ∧ mark ≠ '.' := by
    obtain rfl | rfl := hmark <;> decide
  cases hexponent with
  | plain hmark _ | plus hmark _ | minus hmark _ =>
    intro c hc
    cases hc
    exact hmarks hmark

end Exponents

/-- What is read behind the whole part and the fraction of a number. -/
def finishNumber (negative : Bool) (whole fraction rest : Text) : Scan Json :=
  let float (exponent : Int) :=
    Json.float (Binary64.ofDecimal negative (digitsValue (whole ++ fraction)) (exponent - fraction.length))
  match exponent? Char.isDigit rest with
  | some (exponent, rest) => .ok (float exponent, rest)
  | none =>
    if !fraction.isEmpty then .ok (float 0, rest)
    else if integerDigitLimit < whole.length then .error (.integerTooLong whole.length)
    else
      let value : Int := digitsValue whole
      .ok (.int (if negative then -value else value), rest)

/-- What comes behind a fraction. -/
theorem drop_point (fraction rest : Text) :
    (if fraction.isEmpty then point fraction ++ rest else (point fraction ++ rest).drop (fraction.length + 1)) =
      rest := by
  unfold point
  split
  · rfl
  · rw [List.cons_append, List.drop_succ_cons, List.drop_left]

/-- A number is read part by part. -/
theorem scanNumber_eq {negative : Bool} {whole fraction rest : Text} (hne : whole ≠ [])
    (hwhole : wholeDigits (whole ++ (point fraction ++ rest)) = whole)
    (hfraction : fractionDigits (point fraction ++ rest) = fraction) :
    scanNumber (sign negative ++ (whole ++ (point fraction ++ rest))) = finishNumber negative whole fraction rest := by
  obtain ⟨c, digits, rfl⟩ := List.exists_cons_of_ne_nil hne
  have hsign : c ≠ '-' := by
    rintro rfl
    have hdigit := isDigit_of_mem_wholeDigits (hwhole ▸ List.mem_cons_self)
    cases hdigit
  unfold scanNumber
  split
  rename_i negative' body hsigned
  obtain ⟨rfl, rfl⟩ : negative = negative' ∧ c :: digits ++ (point fraction ++ rest) = body := by
    cases negative with
    | true =>
      cases hsigned
      exact ⟨rfl, rfl⟩
    | false =>
      split at hsigned
      · rename_i heq
        exact absurd (List.cons.inj heq).1 hsign
      · cases hsigned
        exact ⟨rfl, rfl⟩
  rw [hwhole]
  dsimp only
  rw [List.drop_left, hfraction, drop_point]
  rfl

/-- The parts of a number that is read. -/
theorem exists_parts_of_scanNumber {t rest : Text} {value : Json} (hscan : scanNumber t = .ok (value, rest)) :
    ∃ negative whole fraction tail, t = sign negative ++ (whole ++ (point fraction ++ tail)) ∧ Whole whole ∧
      (∀ c ∈ fraction, c.isDigit) ∧ finishNumber negative whole fraction tail = .ok (value, rest) := by
  unfold scanNumber at hscan
  split at hscan
  rename_i negative body hsigned
  have ht : t = sign negative ++ body := by
    split at hsigned <;> cases hsigned <;> rfl
  split at hscan
  · cases hscan
  rename_i hne
  obtain ⟨tail, htail⟩ := wholeDigits_isPrefix body
  have hdrop : body.drop (wholeDigits body).length = tail :=
    List.append_cancel_left ((List.prefix_iff_eq_append.mp (wholeDigits_isPrefix body)).trans htail.symm)
  have hfraction : ∀ c ∈ fractionDigits tail, c.isDigit := by
    unfold fractionDigits
    split
    · exact fun _ => List.mem_takeWhile_imp
    · exact fun _ hc => absurd hc List.not_mem_nil
  rw [hdrop] at hscan
  refine ⟨negative, wholeDigits body, fractionDigits tail, _, ?_, whole_of_wholeDigits hne, hfraction, hscan⟩
  rw [← point_append_fractionDigits, htail, ht]

theorem scanNumber_of_number {t rest : Text} {value : Json} (hnumber : Number t value) (hrest : Closes rest) :
    scanNumber (t ++ rest) = .ok (value, rest) := by
  have hend : ∀ c ∈ rest.head?, c.isDigit = false ∧ c ≠ '.' := fun c hc => ⟨(hrest.head c hc).1, (hrest.head c hc).2.1⟩
  have hparts {negative : Bool} {whole fraction tail : Text} (hwhole : Whole whole)
      (hfraction : ∀ c ∈ fraction, c.isDigit) (htail : ∀ c ∈ tail.head?, c.isDigit = false ∧ c ≠ '.') :
      scanNumber (sign negative ++ (whole ++ (point fraction ++ tail))) =
        finishNumber negative whole fraction tail := by
    refine scanNumber_eq hwhole.ne_nil (wholeDigits_append hwhole ?_) (fractionDigits_point hfraction htail)
    unfold point
    split
    · exact fun c hc => (htail c hc).1
    · rintro c hc
      cases hc
      rfl
  cases hnumber with
  | int hwhole hlimit =>
    rw [List.append_assoc]
    refine (hparts hwhole (List.forall_mem_nil _) hend).trans ?_
    rw [finishNumber, exponent?_of_closes hrest]
    exact (if_neg (by simp)).trans (if_neg (by omega))
  | fraction hwhole hfraction =>
    rw [List.append_assoc, List.append_assoc, hparts hwhole hfraction.isDigit hend, finishNumber,
      exponent?_of_closes hrest]
    exact if_pos (by simpa using hfraction.ne_nil)
  | exponent hwhole hfraction hexponent =>
    rw [List.append_assoc, List.append_assoc, List.append_assoc, hparts hwhole hfraction hexponent.head, finishNumber,
      exponent?_of_exponent hexponent fun c hc => (hend c hc).1]

theorem number_of_scanNumber {t rest : Text} {value : Json} (hscan : scanNumber t = .ok (value, rest)) :
    ∃ used, t = used ++ rest ∧ Number used value := by
  obtain ⟨negative, whole, fraction, tail, rfl, hwhole, hfraction, hfinish⟩ := exists_parts_of_scanNumber hscan
  unfold finishNumber at hfinish
  split at hfinish
  · rename_i exponent rest hexponent
    cases hfinish
    obtain ⟨mark, rfl, hmark⟩ := exponent_of_exponent? hexponent
    exact ⟨_, by simp only [List.append_assoc], .exponent hwhole hfraction hmark⟩
  split at hfinish
  · rename_i hne
    cases hfinish
    exact ⟨_, by simp only [List.append_assoc], .fraction hwhole ⟨by simpa using hne, hfraction⟩⟩
  split at hfinish
  · cases hfinish
  · rename_i hempty hlimit
    cases hfinish
    obtain rfl : fraction = [] := by simpa using hempty
    exact ⟨_, by simp [point], .int hwhole (by omega)⟩

end ViewMarkup.Json
