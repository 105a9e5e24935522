import Mathlib.Data.List.Basic
import ViewMarkup.Json.Reader

namespace ViewMarkup.Json

/-- The characters that stand behind a backslash, and the characters that they stand for. -/
def escapes : List (Char × Char) :=
  [('"', '"'), ('\\', '\\'), ('/', '/'), ('b', '\x08'), ('f', '\x0c'), ('n', '\n'), ('r', '\r'), ('t', '\t')]

/-- The character of a surrogate pair. -/
def pairChar (high low : Nat) : Char :=
  Char.ofNat (0x10000 + (high - 0xd800) * 0x400 + (low - 0xdc00))

/-- Four hexadecimal digits and the unit that they spell. -/
structure IsUnit (digits : Text) (n : Nat) : Prop where
  length : digits.length = 4
  unit : unit? digits = some n

/-- The text between the quotes of a string, and the characters that it stands for. -/
inductive Quoted : Text → Text → Prop
  | nil : Quoted [] []
  | plain {c : Char} {body chars : Text} (hquote : c ≠ '"') (hslash : c ≠ '\\') (hcontrol : 0x20 ≤ c.toNat)
      (hbody : Quoted body chars) : Quoted (c :: body) (c :: chars)
  | escape {mark c : Char} {body chars : Text} (hmark : (mark, c) ∈ escapes) (hbody : Quoted body chars) :
      Quoted ('\\' :: mark :: body) (c :: chars)
  | unit {digits body chars : Text} {n : Nat} (hunit : IsUnit digits n) (hhigh : isHighSurrogate n = false)
      (hbody : Quoted body chars) : Quoted ('\\' :: 'u' :: (digits ++ body)) (unitChar n :: chars)
  | pair {digits digits' body chars : Text} {high low : Nat} (hunit : IsUnit digits high)
      (hhigh : isHighSurrogate high) (hunit' : IsUnit digits' low) (hlow : isLowSurrogate low)
      (hbody : Quoted body chars) :
      Quoted ('\\' :: 'u' :: (digits ++ '\\' :: 'u' :: (digits' ++ body))) (pairChar high low :: chars)
  /-- The first half of a pair without the second. -/
  | lone {digits body chars : Text} {high : Nat} (hunit : IsUnit digits high) (hhigh : isHighSurrogate high)
      (hnext : ∀ more low, body = '\\' :: 'u' :: more → unit? more = some low → isLowSurrogate low = false)
      (hbody : Quoted body chars) : Quoted ('\\' :: 'u' :: (digits ++ body)) (unitChar high :: chars)

/-- Only the first four characters count. -/
theorem IsUnit.unit?_append {digits : Text} {n : Nat} (hunit : IsUnit digits n) (rest : Text) :
    unit? (digits ++ rest) = some n := by
  obtain ⟨hlength, hunit⟩ := hunit
  match digits, hlength with
  | [_, _, _, _], _ => exact hunit

theorem exists_isUnit {t : Text} {n : Nat} (hunit : unit? t = some n) :
    ∃ digits rest, t = digits ++ rest ∧ IsUnit digits n := by
  match t with
  | [] | [_] | [_, _] | [_, _, _] => cases hunit
  | a :: b :: c :: d :: rest => exact ⟨[a, b, c, d], rest, rfl, rfl, hunit⟩

theorem scanString_skip (opening chars : Text) (passed t : Text) :
    scanString opening chars passed.length (passed ++ t) = scanString opening chars 0 t := by
  induction passed with
  | nil => rfl
  | cons c passed ih => rw [List.length_cons, List.cons_append, scanString, ih]

section Escapes

variable {digits : Text} {n : Nat} {rest : Text}

theorem length_append_of_isUnit (hunit : IsUnit digits n) (hne : rest ≠ []) : ¬ (digits ++ rest).length ≤ 4 := by
  have hpos := List.length_pos_iff.mpr hne
  rw [List.length_append, hunit.length]
  omega

theorem drop_of_isUnit (hunit : IsUnit digits n) (rest : Text) : (digits ++ rest).drop 4 = rest := by
  rw [← hunit.length, List.drop_left]

theorem scanUnit_of_not_high (hunit : IsUnit digits n) (hhigh : isHighSurrogate n = false) (hne : rest ≠ []) :
    scanUnit (digits ++ rest) = .ok (unitChar n, 5) := by
  simp only [scanUnit, if_neg (length_append_of_isUnit hunit hne), hunit.unit?_append, hhigh]

theorem scanUnit_of_pair {digits' : Text} {low : Nat} (hunit : IsUnit digits n) (hhigh : isHighSurrogate n)
    (hunit' : IsUnit digits' low) (hlow : isLowSurrogate low) (hne : rest ≠ []) :
    scanUnit (digits ++ '\\' :: 'u' :: (digits' ++ rest)) = .ok (pairChar n low, 11) := by
  simp only [scanUnit, if_neg (length_append_of_isUnit hunit (List.cons_ne_nil _ _)), hunit.unit?_append, hhigh,
    drop_of_isUnit hunit, if_neg (length_append_of_isUnit hunit' hne), hunit'.unit?_append, if_pos hlow, pairChar]

theorem scanUnit_of_lone (hunit : IsUnit digits n) (hhigh : isHighSurrogate n) (hne : rest ≠ [])
    (hnext : ∀ more, rest = '\\' :: 'u' :: more → ∃ low, unit? more = some low ∧ isLowSurrogate low = false) :
    scanUnit (digits ++ rest) = .ok (unitChar n, 5) := by
  simp only [scanUnit, if_neg (length_append_of_isUnit hunit hne), hunit.unit?_append, hhigh, drop_of_isUnit hunit]
  split
  · rename_i more _
    obtain ⟨low, hlow, hnot⟩ := hnext more rfl
    simp [hlow, hnot]
  · rfl

end Escapes

/-- A unit that follows is spelled in full before the closing quote. -/
theorem Quoted.exists_unit {body chars rest more : Text} (hquoted : Quoted body chars)
    (hmore : body ++ '"' :: rest = '\\' :: 'u' :: more) :
    ∃ more' low, body = '\\' :: 'u' :: more' ∧ unit? more' = some low ∧ unit? more = some low := by
  have hunits {digits tail : Text} {n : Nat} (hunit : IsUnit digits n)
      (hmore : '\\' :: 'u' :: (digits ++ tail) ++ '"' :: rest = '\\' :: 'u' :: more) :
      ∃ more' low, '\\' :: 'u' :: (digits ++ tail) = '\\' :: 'u' :: more' ∧ unit? more' = some low ∧
        unit? more = some low := by
    obtain rfl : digits ++ tail ++ '"' :: rest = more := by simpa using hmore
    exact ⟨digits ++ tail, n, rfl, hunit.unit?_append _, by rw [List.append_assoc, hunit.unit?_append]⟩
  cases hquoted with
  | nil => simp at hmore
  | plain _ hslash => exact absurd (List.cons.inj hmore).1 hslash
  | escape hmark =>
    obtain ⟨rfl, -⟩ : _ = 'u' ∧ _ := by simpa using hmore
    simp [escapes] at hmark
  | unit hunit | pair hunit | lone hunit => exact hunits hunit hmore

/-- An escape is passed over as a whole. -/
theorem scanString_escape {opening passed t : Text} {c : Char}
    (hescape : scanEscape opening (passed ++ t) = .ok (c, passed.length)) (before : Text) :
    scanString opening before 0 ('\\' :: (passed ++ t)) = scanString opening (c :: before) 0 t := by
  rw [scanString, if_neg (by decide), if_pos rfl, hescape]
  exact scanString_skip opening (c :: before) passed t

theorem scanEscape_of_mem {mark c : Char} (hmark : (mark, c) ∈ escapes) (opening t : Text) :
    scanEscape opening (mark :: t) = .ok (c, 1) := by
  simp only [escapes, List.mem_cons, Prod.mk.injEq, List.not_mem_nil, or_false] at hmark
  obtain ⟨rfl, rfl⟩ | ⟨rfl, rfl⟩ | ⟨rfl, rfl⟩ | ⟨rfl, rfl⟩ | ⟨rfl, rfl⟩ | ⟨rfl, rfl⟩ | ⟨rfl, rfl⟩ | ⟨rfl, rfl⟩ :=
    hmark <;> rfl

/-- A string is read up to the quote behind it. -/
theorem scanString_of_quoted {body chars : Text} (hquoted : Quoted body chars) (opening before rest : Text) :
    scanString opening before 0 (body ++ '"' :: rest) = .ok (before.reverse ++ chars, rest) := by
  induction hquoted generalizing before with
  | nil => simp [scanString]
  | plain hquote hslash hcontrol _ ih =>
    rw [List.cons_append, scanString, if_neg hquote, if_neg hslash, if_neg (by omega), ih]
    simp
  | @escape mark c body chars hmark _ ih =>
    have hescape : scanEscape opening ([mark] ++ (body ++ '"' :: rest)) = .ok (c, [mark].length) :=
      scanEscape_of_mem hmark opening (body ++ '"' :: rest)
    have hpass := scanString_escape hescape before
    exact hpass.trans ((ih _).trans (by simp))
  | @unit digits body chars n hunit hhigh _ ih =>
    have hescape : scanEscape opening ('u' :: digits ++ (body ++ '"' :: rest)) = .ok (unitChar n, 5) :=
      scanUnit_of_not_high hunit hhigh (by simp)
    have hpass := scanString_escape (by rwa [List.length_cons, hunit.length]) before
    rw [ih] at hpass
    simpa using hpass
  | @pair digits digits' body chars high low hunit hhigh hunit' hlow _ ih =>
    have hescape : scanEscape opening ('u' :: (digits ++ '\\' :: 'u' :: (digits' ++ (body ++ '"' :: rest)))) =
        .ok (pairChar high low, 11) := scanUnit_of_pair hunit hhigh hunit' hlow (by simp)
    have hescape' : scanEscape opening (('u' :: (digits ++ '\\' :: 'u' :: digits')) ++ (body ++ '"' :: rest)) =
        .ok (pairChar high low, ('u' :: (digits ++ '\\' :: 'u' :: digits')).length) := by
      simpa [hunit.length, hunit'.length] using hescape
    have hpass := scanString_escape hescape' before
    rw [ih] at hpass
    simpa using hpass
  | @lone digits body chars high hunit hhigh hnext hbody ih =>
    have hescape : scanEscape opening ('u' :: digits ++ (body ++ '"' :: rest)) = .ok (unitChar high, 5) := by
      refine scanUnit_of_lone hunit hhigh (by simp) fun more hmore => ?_
      obtain ⟨more', low, hbody', hlow', hlow⟩ := hbody.exists_unit hmore
      exact ⟨low, hlow, hnext more' low hbody' hlow'⟩
    have hpass := scanString_escape (by rwa [List.length_cons, hunit.length]) before
    rw [ih] at hpass
    simpa using hpass

/-- The first half of a pair stands alone if no second half comes behind it. -/
theorem quoted_of_lone {digits tail : Text} {high : Nat} (hunit : IsUnit digits high) (hhigh : isHighSurrogate high)
    (hnext : ∀ more low, tail = '\\' :: 'u' :: more → 4 < more.length → unit? more = some low →
      isLowSurrogate low = false) (body chars rest : Text) (htail : tail = body ++ '"' :: rest)
    (hbody : Quoted body chars) : Quoted ('\\' :: ('u' :: digits ++ body)) (unitChar high :: chars) := by
  refine .lone hunit hhigh (fun more low hmore hlow => ?_) hbody
  obtain ⟨digits', more', rfl, hunit'⟩ := exists_isUnit hlow
  refine hnext (digits' ++ (more' ++ '"' :: rest)) low (by simp [htail, hmore]) ?_ (hunit'.unit?_append _)
  rw [List.length_append, hunit'.length, List.length_append, List.length_cons]
  omega

/-- What a unicode escape passes over stands in a string for the character that it gives. -/
theorem quoted_of_scanUnit {t : Text} {c : Char} {width : Nat} (hscan : scanUnit t = .ok (c, width)) :
    ∃ passed tail, 'u' :: t = passed ++ tail ∧ passed.length = width ∧ ∀ body chars rest, tail = body ++ '"' :: rest →
      Quoted body chars → Quoted ('\\' :: (passed ++ body)) (c :: chars) := by
  unfold scanUnit at hscan
  split at hscan
  · cases hscan
  rename_i high hsome
  split at hsome
  · cases hsome
  clear * - hscan hsome
  obtain ⟨digits, tail, rfl, hunit⟩ := exists_isUnit hsome
  rw [drop_of_isUnit hunit] at hscan
  have hlength : ('u' :: digits).length = 5 := by rw [List.length_cons, hunit.length]
  split at hscan
  · rename_i more hhigh
    split at hscan
    · rename_i hshort
      cases hscan
      refine ⟨'u' :: digits, _, rfl, hlength, quoted_of_lone hunit hhigh fun more' low hmore hlong _ => ?_⟩
      obtain rfl : more = more' := by simpa using hmore
      omega
    split at hscan
    · cases hscan
    rename_i low hlow
    split at hscan
    · rename_i hpair
      obtain ⟨rfl, rfl⟩ : pairChar high low = c ∧ 11 = width := by
        rwa [Except.ok.injEq, Prod.mk.injEq] at hscan
      obtain ⟨digits', tail, rfl, hunit'⟩ := exists_isUnit hlow
      refine ⟨'u' :: (digits ++ '\\' :: 'u' :: digits'), tail, by simp, by simp [hunit.length, hunit'.length], ?_⟩
      intro body chars rest _ hbody
      simpa using Quoted.pair hunit hhigh hunit' hpair hbody
    · rename_i hnot
      cases hscan
      refine ⟨'u' :: digits, _, rfl, hlength, quoted_of_lone hunit hhigh fun more' low' hmore _ hlow' => ?_⟩
      obtain rfl : more = more' := by simpa using hmore
      obtain rfl : low = low' := Option.some.inj (hlow.symm.trans hlow')
      simpa using hnot
  · rename_i hnot
    cases hscan
    cases hhigh : isHighSurrogate high with
    | false => exact ⟨'u' :: digits, _, rfl, hlength, fun _ _ _ _ hbody => .unit hunit hhigh hbody⟩
    | true =>
      refine ⟨'u' :: digits, _, rfl, hlength, quoted_of_lone hunit hhigh fun more low hmore _ _ => ?_⟩
      exact absurd hmore (hnot more hhigh)

theorem quoted_of_scanEscape {opening t : Text} {c : Char} {width : Nat}
    (hscan : scanEscape opening t = .ok (c, width)) :
    ∃ passed tail, t = passed ++ tail ∧ passed.length = width ∧ ∀ body chars rest, tail = body ++ '"' :: rest →
      Quoted body chars → Quoted ('\\' :: (passed ++ body)) (c :: chars) := by
  unfold scanEscape at hscan
  split at hscan
  case h_2 digits => exact quoted_of_scanUnit hscan
  all_goals cases hscan
  all_goals exact ⟨[_], _, rfl, rfl, fun _ _ _ _ hbody => .escape (by decide) hbody⟩

/-- What is read as a string stands between quotes for the characters that are read. -/
theorem quoted_of_scanString {opening before t chars rest : Text}
    (hscan : scanString opening before 0 t = .ok (chars, rest)) :
    ∃ body chars', t = body ++ '"' :: rest ∧ chars = before.reverse ++ chars' ∧ Quoted body chars' := by
  induction hlength : t.length using Nat.strongRecOn generalizing before t with
  | ind length ih =>
    cases t with
    | nil => cases hscan
    | cons c t =>
      rw [scanString] at hscan
      split at hscan
      · rename_i hquote
        cases hscan
        exact ⟨[], [], by rw [hquote]; rfl, by simp, .nil⟩
      split at hscan
      · rename_i hslash
        split at hscan
        · cases hscan
        rename_i next width hescape
        obtain ⟨passed, tail, rfl, rfl, hquoted⟩ := quoted_of_scanEscape hescape
        rw [scanString_skip] at hscan
        have hshorter : tail.length < length := by
          rw [← hlength, List.length_cons, List.length_append]
          omega
        obtain ⟨body, chars', rfl, hchars, hbody⟩ := ih tail.length hshorter hscan rfl
        exact ⟨'\\' :: (passed ++ body), next :: chars', by simp [hslash], by simpa using hchars,
          hquoted body chars' rest rfl hbody⟩
      split at hscan
      · cases hscan
      · rename_i hquote hslash hcontrol
        obtain ⟨body, chars', rfl, hchars, hbody⟩ := ih t.length (by simp [← hlength]) hscan rfl
        exact ⟨c :: body, c :: chars', rfl, by simpa using hchars, .plain hquote hslash (by omega) hbody⟩

end ViewMarkup.Json
