import ViewMarkup.Proofs.Json.Numbers
import ViewMarkup.Proofs.Json.Strings

namespace ViewMarkup.Json

/-- Blanks between the parts of a JSON text. -/
structure Gap where
  chars : Text
  blank : ∀ c ∈ chars, isGap c

/-- No blanks. -/
def Gap.empty : Gap := ⟨[], List.forall_mem_nil _⟩

/-- An item of an array, or the value of a member. -/
structure Element where
  before : Gap
  text : Text
  after : Gap
  value : Json

/-- An item between its blanks. -/
def Element.spelling (element : Element) : Text :=
  element.before.chars ++ (element.text ++ element.after.chars)

/-- A member of an object. -/
structure Member where
  before : Gap
  quoted : Text
  name : Text
  hname : Quoted quoted name
  after : Gap
  element : Element

/-- A member between its blanks. -/
def Member.spelling (member : Member) : Text :=
  member.before.chars ++
    '"' :: (member.quoted ++ '"' :: (member.after.chars ++ ':' :: member.element.spelling))

/-- The name of a member and its value. -/
def Member.field (member : Member) : Text × Json :=
  (member.name, member.element.value)

/-- Parts that come after a first one. -/
def others (spellings : List Text) : Text :=
  spellings.flatMap fun spelling => ',' :: spelling

/-- A text and the value that it spells. Of the members with one name the first gives the place and the last the
value. -/
inductive Spelled : Text → Json → Prop
  | word {word : Text × Json} (hword : word ∈ words) : Spelled word.1 word.2
  | number {t : Text} {value : Json} (hnumber : Number t value) : Spelled t value
  | string {body chars : Text} (hquoted : Quoted body chars) : Spelled ('"' :: (body ++ ['"'])) (.string chars)
  | emptyArray (gap : Gap) : Spelled ('[' :: (gap.chars ++ [']'])) (.array [])
  | array {item : Element} {items : List Element}
      (hitems : ∀ element ∈ item :: items, Spelled element.text element.value) :
      Spelled ('[' :: (item.spelling ++ (others (items.map Element.spelling) ++ [']'])))
        (.array ((item :: items).map Element.value))
  | emptyObject (gap : Gap) : Spelled ('\x7b' :: (gap.chars ++ ['\x7d'])) (.object [])
  | object {member : Member} {members : List Member}
      (hmembers : ∀ entry ∈ member :: members, Spelled entry.element.text entry.element.value) :
      Spelled ('\x7b' :: (member.spelling ++ (others (members.map Member.spelling) ++ ['\x7d'])))
        (.object (Fields.ofPairs ((member :: members).map Member.field)))

/-- The characters with which a value starts. -/
def openers : Text :=
  ['"', '[', '\x7b', '-', '0', '1', '2', '3', '4', '5', '6', '7', '8', '9', 'n', 't', 'f', 'N', 'I']

theorem mem_digits_of_isDigit {c : Char} (hdigit : c.isDigit) :
    c ∈ ['0', '1', '2', '3', '4', '5', '6', '7', '8', '9'] := by
  have hcodes : ∀ n < 58, (Char.ofNat n).isDigit →
      Char.ofNat n ∈ ['0', '1', '2', '3', '4', '5', '6', '7', '8', '9'] := by decide
  simpa using hcodes c.toNat (toNat_lt_of_isDigit hdigit) (by simpa using hdigit)

/-- A number starts with a digit, or with its sign and a digit. -/
theorem Number.head {t : Text} {value : Json} (hnumber : Number t value) :
    ∃ c rest, t = c :: rest ∧ (c.isDigit ∨ c = '-' ∧ ∃ d more, rest = d :: more ∧ d.isDigit) := by
  have hsigned {negative : Bool} {whole rest : Text} (hwhole : Whole whole) :
      ∃ c tail, sign negative ++ (whole ++ rest) = c :: tail ∧
        (c.isDigit ∨ c = '-' ∧ ∃ d more, tail = d :: more ∧ d.isDigit) := by
    obtain ⟨d, digits, rfl, hd⟩ := hwhole.exists_cons
    cases negative with
    | true => exact ⟨'-', _, rfl, .inr ⟨rfl, d, _, rfl, hd⟩⟩
    | false => exact ⟨d, _, rfl, .inl hd⟩
  cases hnumber with
  | int hwhole _ => simpa using @hsigned _ _ [] hwhole
  | fraction hwhole _ => exact hsigned hwhole
  | exponent hwhole _ _ => exact hsigned hwhole

/-- How words start. -/
theorem head_of_mem_words {word : Text × Json} (hword : word ∈ words) :
    ∃ c d more, word.1 = c :: d :: more ∧ c ∈ ['n', 't', 'f', 'N', 'I', '-'] ∧ d.isDigit = false := by
  have hwords : ∀ word ∈ words, ∃ c d more, word.1 = c :: d :: more ∧ c ∈ ['n', 't', 'f', 'N', 'I', '-'] ∧
      d.isDigit = false := by
    simp only [words, List.forall_mem_cons]
    exact ⟨⟨'n', 'u', _, rfl, by decide, rfl⟩, ⟨'t', 'r', _, rfl, by decide, rfl⟩,
      ⟨'f', 'a', _, rfl, by decide, rfl⟩, ⟨'N', 'a', _, rfl, by decide, rfl⟩,
      ⟨'I', 'n', _, rfl, by decide, rfl⟩, ⟨'-', 'I', _, rfl, by decide, rfl⟩, by simp⟩
  exact hwords word hword

theorem Spelled.head {t : Text} {value : Json} (hspelled : Spelled t value) :
    ∃ c rest, t = c :: rest ∧ c ∈ openers := by
  cases hspelled with
  | word hword =>
    obtain ⟨c, d, more, heq, hc, -⟩ := head_of_mem_words hword
    have hsub : ['n', 't', 'f', 'N', 'I', '-'] ⊆ openers := by decide
    exact ⟨c, d :: more, heq, hsub hc⟩
  | number hnumber =>
    obtain ⟨c, rest, rfl, hdigit | ⟨rfl, -⟩⟩ := hnumber.head
    · have hsub : ['0', '1', '2', '3', '4', '5', '6', '7', '8', '9'] ⊆ openers := by decide
      exact ⟨c, rest, rfl, hsub (mem_digits_of_isDigit hdigit)⟩
    · exact ⟨'-', rest, rfl, by decide⟩
  | string _ => exact ⟨_, _, rfl, by decide⟩
  | emptyArray _ | array _ => exact ⟨_, _, rfl, by decide⟩
  | emptyObject _ | object _ => exact ⟨_, _, rfl, by decide⟩

/-- The characters with which a value ends. -/
def enders : Text :=
  ['"', ']', '\x7d', '0', '1', '2', '3', '4', '5', '6', '7', '8', '9', 'l', 'e', 'N', 'y']

theorem Digits.getLast {t : Text} (hdigits : Digits t) : ∃ front c, t = front ++ [c] ∧ c.isDigit := by
  refine ⟨t.dropLast, t.getLast hdigits.ne_nil, (List.dropLast_append_getLast hdigits.ne_nil).symm, ?_⟩
  exact hdigits.isDigit _ (List.getLast_mem hdigits.ne_nil)

theorem Number.getLast {t : Text} {value : Json} (hnumber : Number t value) :
    ∃ front c, t = front ++ [c] ∧ c.isDigit := by
  have hbehind {digits : Text} (hdigits : Digits digits) (before : Text) :
      ∃ front c, before ++ digits = front ++ [c] ∧ c.isDigit := by
    obtain ⟨front, c, rfl, hc⟩ := hdigits.getLast
    exact ⟨before ++ front, c, (List.append_assoc _ _ _).symm, hc⟩
  cases hnumber with
  | int hwhole _ => exact hbehind hwhole.toDigits _
  | @fraction negative whole fraction _ hfraction =>
    have hpoint : point fraction = ['.'] ++ fraction := if_neg (by simpa using hfraction.ne_nil)
    rw [hpoint, ← List.append_assoc, ← List.append_assoc]
    exact hbehind hfraction _
  | @exponent negative whole fraction mark _ _ _ hexponent =>
    cases hexponent with
    | @plain mark digits _ hdigits =>
      simpa using hbehind hdigits (sign negative ++ (whole ++ (point fraction ++ [mark])))
    | @plus mark digits _ hdigits =>
      simpa using hbehind hdigits (sign negative ++ (whole ++ (point fraction ++ [mark, '+'])))
    | @minus mark digits _ hdigits =>
      simpa using hbehind hdigits (sign negative ++ (whole ++ (point fraction ++ [mark, '-'])))

theorem Spelled.getLast {t : Text} {value : Json} (hspelled : Spelled t value) :
    ∃ front c, t = front ++ [c] ∧ c ∈ enders := by
  cases hspelled with
  | word hword =>
    have hwords : ∀ word ∈ words, ∃ front c, word.1 = front ++ [c] ∧ c ∈ enders := by
      simp only [words, List.forall_mem_cons]
      exact ⟨⟨"nul", 'l', rfl, by decide⟩, ⟨"tru", 'e', rfl, by decide⟩, ⟨"fals", 'e', rfl, by decide⟩,
        ⟨"Na", 'N', rfl, by decide⟩, ⟨"Infinit", 'y', rfl, by decide⟩, ⟨"-Infinit", 'y', rfl, by decide⟩, by simp⟩
    exact hwords _ hword
  | number hnumber =>
    obtain ⟨front, c, rfl, hdigit⟩ := hnumber.getLast
    have hsub : ['0', '1', '2', '3', '4', '5', '6', '7', '8', '9'] ⊆ enders := by decide
    exact ⟨front, c, rfl, hsub (mem_digits_of_isDigit hdigit)⟩
  | @string body _ _ => exact ⟨'"' :: body, '"', rfl, by decide⟩
  | emptyArray gap => exact ⟨'[' :: gap.chars, ']', rfl, by decide⟩
  | @array item items _ =>
    exact ⟨'[' :: (item.spelling ++ others (items.map Element.spelling)), ']', by simp, by decide⟩
  | emptyObject gap => exact ⟨'\x7b' :: gap.chars, '\x7d', rfl, by decide⟩
  | @object member members _ =>
    exact ⟨'\x7b' :: (member.spelling ++ others (members.map Member.spelling)), '\x7d', by simp, by decide⟩

theorem skipBlanks_append_cons (gap : Gap) {c : Char} (hc : isGap c = false) (rest : Text) :
    skipBlanks (gap.chars ++ c :: rest) = c :: rest := by
  rw [skipBlanks_eq, List.dropWhile_append_of_pos gap.blank]
  exact List.dropWhile_cons_of_neg (by simp [hc])

theorem Closes.gap (gap : Gap) {rest : Text} (hrest : Closes rest) : Closes (gap.chars ++ rest) := by
  obtain ⟨chars, hblank⟩ := gap
  cases chars with
  | nil => exact hrest
  | cons c chars =>
    rintro d hd
    cases hd
    have hc := hblank c List.mem_cons_self
    simp only [isGap, Bool.or_eq_true, beq_iff_eq] at hc
    obtain ((rfl | rfl) | rfl) | rfl := hc <;> decide

section Scalars

theorem scanValue_of_head {c : Char} (hc : c ≠ '"' ∧ c ≠ '[' ∧ c ≠ '\x7b') (fuel : Nat) (t : Text) :
    scanValue (fuel + 1) (c :: t) = scanScalar (c :: t) := by
  rw [scanValue] <;> rintro rest heq
  · exact hc.1 (List.cons.inj heq).1
  · exact hc.2.1 (List.cons.inj heq).1
  · exact hc.2.2 (List.cons.inj heq).1

/-- No word starts as another, or as a number. -/
theorem scanScalar_of_word {word : Text × Json} (hword : word ∈ words) (rest : Text) :
    scanScalar (word.1 ++ rest) = .ok (word.2, rest) := by
  simp only [words, List.mem_cons, List.not_mem_nil, or_false] at hword
  obtain rfl | rfl | rfl | rfl | rfl | rfl := hword <;> rfl

theorem after?_eq_none_of_number {t : Text} {value : Json} (hnumber : Number t value) (rest : Text) :
    ∀ word ∈ words, Text.after? word.1 (t ++ rest) = none := by
  have hfirst : ['n', 't', 'f', 'N', 'I', '-'].all (fun c => !c.isDigit) := by decide
  intro word hword
  rw [Option.eq_none_iff_forall_ne_some]
  intro tail hafter
  obtain ⟨c, d, more, heq, hc, hd⟩ := head_of_mem_words hword
  rw [Text.after?_eq_some_iff, heq] at hafter
  obtain ⟨c', rest', rfl, hdigit | ⟨-, d', more', rfl, hdigit⟩⟩ := hnumber.head
  · obtain ⟨rfl, -⟩ := List.cons.inj hafter
    exact absurd hdigit (by simpa using List.all_eq_true.mp hfirst _ hc)
  · obtain ⟨rfl, -⟩ := List.cons.inj (List.cons.inj hafter).2
    exact absurd hdigit (by simp [hd])

theorem scanScalar_of_number {t rest : Text} {value : Json} (hnumber : Number t value) (hrest : Closes rest) :
    scanScalar (t ++ rest) = .ok (value, rest) := by
  have hnone :
      (words.findSome? fun word => (Text.after? word.1 (t ++ rest)).map fun rest => (word.2, rest)) = none := by
    rw [List.findSome?_eq_none_iff]
    intro word hword
    rw [after?_eq_none_of_number hnumber rest word hword, Option.map_none]
  rw [scanScalar, hnone]
  exact scanNumber_of_number hnumber hrest

end Scalars

/-- A text that a scan reads as a value wherever it stands. Its length bounds the number of values in it. -/
structure Scans (t : Text) (value : Json) : Prop where
  head : ∃ c rest, t = c :: rest ∧ c ∈ openers
  scan : ∀ fuel rest, t.length ≤ fuel → Closes rest → scanValue fuel (t ++ rest) = .ok (value, rest)

/-- Neither a blank nor a closing bracket starts a value. -/
theorem of_mem_openers {c : Char} (hc : c ∈ openers) : isGap c = false ∧ c ≠ ']' ∧ c ≠ '\x7d' := by
  have hopeners : openers.all (fun c => !isGap c && c != ']' && c != '\x7d') := by decide
  simpa [and_assoc] using List.all_eq_true.mp hopeners c hc

/-- The blanks before a value are passed over. -/
theorem Scans.skipBlanks_append {t : Text} {value : Json} (hscans : Scans t value) (gap : Gap) (rest : Text) :
    skipBlanks (gap.chars ++ (t ++ rest)) = t ++ rest := by
  obtain ⟨c, tail, rfl, hc⟩ := hscans.head
  exact skipBlanks_append_cons gap (of_mem_openers hc).1 (tail ++ rest)

theorem Scans.skipBlanks_spelling {element : Element} (hscans : Scans element.text element.value) (rest : Text) :
    skipBlanks (element.spelling ++ rest) = element.text ++ (element.after.chars ++ rest) := by
  rw [Element.spelling, List.append_assoc, List.append_assoc, hscans.skipBlanks_append]

theorem Member.skipBlanks_spelling (member : Member) (rest : Text) :
    skipBlanks (member.spelling ++ rest) =
      '"' :: (member.quoted ++ '"' :: (member.after.chars ++ ':' :: (member.element.before.chars ++
        (member.element.text ++ (member.element.after.chars ++ rest))))) := by
  simp only [Member.spelling, Element.spelling, List.append_assoc, List.cons_append]
  exact skipBlanks_append_cons member.before rfl _

theorem Element.length_text_le (element : Element) : element.text.length ≤ element.spelling.length := by
  simp only [spelling, List.length_append]
  omega

theorem Member.length_text_le (member : Member) : member.element.text.length ≤ member.spelling.length := by
  simp only [spelling, Element.spelling, List.length_append, List.length_cons]
  omega

theorem others_cons (spelling : Text) (spellings : List Text) :
    others (spelling :: spellings) = ',' :: (spelling ++ others spellings) :=
  rfl

section Nested

variable {fuel : Nat} {rest : Text}

theorem closes_cons {c : Char} (hc : c ∈ closers) (rest : Text) : Closes (c :: rest) := by
  rintro d hd
  cases hd
  exact hc

section Items

variable {item : Element} (hitem : Scans item.text item.value) (hfuel : item.text.length ≤ fuel) (before : List Json)

include hitem hfuel

theorem scanItems_last :
    scanItems (fuel + 1) before (item.text ++ (item.after.chars ++ ']' :: rest)) =
      .ok (.array (before.reverse ++ [item.value]), rest) := by
  rw [scanItems, hitem.scan fuel _ hfuel ((closes_cons (by decide) rest).gap item.after)]
  dsimp only
  rw [skipBlanks_append_cons item.after rfl, List.reverse_cons]
  rfl

theorem scanItems_comma :
    scanItems (fuel + 1) before (item.text ++ (item.after.chars ++ ',' :: rest)) =
      scanItems fuel (item.value :: before) (skipBlanks rest) := by
  rw [scanItems, hitem.scan fuel _ hfuel ((closes_cons (by decide) rest).gap item.after)]
  dsimp only
  rw [skipBlanks_append_cons item.after rfl]
  rfl

end Items

section Members

variable {member : Member} (hvalue : Scans member.element.text member.element.value)
  (hfuel : member.element.text.length ≤ fuel) (before : Fields Json)

include hvalue hfuel

theorem scanMembers_last :
    scanMembers (fuel + 1) before ('"' :: (member.quoted ++ '"' :: (member.after.chars ++
      ':' :: (member.element.before.chars ++ (member.element.text ++
        (member.element.after.chars ++ '\x7d' :: rest)))))) =
      .ok (.object (Fields.put member.name member.element.value before), rest) := by
  have hscan := hvalue.scan fuel _ hfuel ((closes_cons (c := '\x7d') (by decide) rest).gap member.element.after)
  have hcolon := skipBlanks_append_cons (c := ':') member.after rfl
  have hend := skipBlanks_append_cons (c := '\x7d') member.element.after rfl rest
  simp only [scanMembers, scanString_of_quoted member.hname, hcolon, hvalue.skipBlanks_append, hscan, hend]
  rfl

theorem scanMembers_comma :
    scanMembers (fuel + 1) before ('"' :: (member.quoted ++ '"' :: (member.after.chars ++
      ':' :: (member.element.before.chars ++ (member.element.text ++ (member.element.after.chars ++ ',' :: rest)))))) =
      scanMembers fuel (Fields.put member.name member.element.value before) (skipBlanks rest) := by
  have hscan := hvalue.scan fuel _ hfuel ((closes_cons (c := ',') (by decide) rest).gap member.element.after)
  have hcolon := skipBlanks_append_cons (c := ':') member.after rfl
  have hend := skipBlanks_append_cons (c := ',') member.element.after rfl rest
  simp only [scanMembers, scanString_of_quoted member.hname, hcolon, hvalue.skipBlanks_append, hscan, hend]
  rfl

end Members

/-- The items of an array are read one after the other. -/
theorem scanItems_of_scans {item : Element} {items : List Element} {before : List Json}
    (hitems : ∀ element ∈ item :: items, Scans element.text element.value)
    (hfuel : (item.spelling ++ others (items.map Element.spelling)).length < fuel) :
    scanItems fuel before (skipBlanks (item.spelling ++ (others (items.map Element.spelling) ++ ']' :: rest))) =
      .ok (.array (before.reverse ++ (item :: items).map Element.value), rest) := by
  induction items generalizing item before fuel with
  | nil =>
    obtain ⟨fuel, rfl⟩ := Nat.exists_eq_add_one_of_ne_zero (Nat.ne_zero_of_lt hfuel)
    have hitem := hitems item List.mem_cons_self
    have hlength := item.length_text_le
    rw [List.length_append] at hfuel
    rw [hitem.skipBlanks_spelling]
    exact scanItems_last hitem (by omega) before
  | cons next items ih =>
    obtain ⟨fuel, rfl⟩ := Nat.exists_eq_add_one_of_ne_zero (Nat.ne_zero_of_lt hfuel)
    obtain ⟨hitem, hitems⟩ := List.forall_mem_cons.mp hitems
    have hlength := item.length_text_le
    rw [List.map_cons, others_cons] at hfuel ⊢
    rw [List.length_append, List.length_cons] at hfuel
    rw [hitem.skipBlanks_spelling, List.cons_append, scanItems_comma hitem (by omega), List.append_assoc,
      ih hitems (by omega), List.reverse_cons, List.append_assoc]
    rfl

/-- The members of an object are read one after the other. -/
theorem scanMembers_of_scans {member : Member} {members : List Member} {before : Fields Json}
    (hmembers : ∀ entry ∈ member :: members, Scans entry.element.text entry.element.value)
    (hfuel : (member.spelling ++ others (members.map Member.spelling)).length < fuel) :
    scanMembers fuel before
        (skipBlanks (member.spelling ++ (others (members.map Member.spelling) ++ '\x7d' :: rest))) =
      .ok (.object (((member :: members).map Member.field).foldl
        (fun fields field => Fields.put field.1 field.2 fields) before), rest) := by
  induction members generalizing member before fuel with
  | nil =>
    obtain ⟨fuel, rfl⟩ := Nat.exists_eq_add_one_of_ne_zero (Nat.ne_zero_of_lt hfuel)
    have hmember := hmembers member List.mem_cons_self
    have hlength := member.length_text_le
    rw [List.length_append] at hfuel
    rw [member.skipBlanks_spelling]
    exact scanMembers_last hmember (by omega) before
  | cons next members ih =>
    obtain ⟨fuel, rfl⟩ := Nat.exists_eq_add_one_of_ne_zero (Nat.ne_zero_of_lt hfuel)
    obtain ⟨hmember, hmembers⟩ := List.forall_mem_cons.mp hmembers
    have hlength := member.length_text_le
    rw [List.map_cons, others_cons] at hfuel ⊢
    rw [List.length_append, List.length_cons] at hfuel
    rw [member.skipBlanks_spelling, List.cons_append, scanMembers_comma hmember (by omega), List.append_assoc,
      ih hmembers (by omega)]
    rfl

end Nested

/-- A value is read wherever it is spelled. -/
theorem Spelled.scans {t : Text} {value : Json} (hspelled : Spelled t value) : Scans t value := by
  have hscalar {t : Text} {value : Json} (hspelled : Spelled t value)
      (hhead : ∃ c rest, t = c :: rest ∧ c ≠ '"' ∧ c ≠ '[' ∧ c ≠ '\x7b')
      (hscan : ∀ rest, Closes rest → scanScalar (t ++ rest) = .ok (value, rest)) : Scans t value := by
    refine ⟨hspelled.head, fun fuel rest hfuel hrest => ?_⟩
    obtain ⟨c, tail, rfl, hc⟩ := hhead
    obtain ⟨fuel, rfl⟩ := Nat.exists_eq_add_one_of_ne_zero (Nat.ne_zero_of_lt hfuel)
    rw [List.cons_append, scanValue_of_head hc, ← List.cons_append, hscan rest hrest]
  induction hspelled with
  | word hword =>
    obtain ⟨c, d, more, heq, hc, -⟩ := head_of_mem_words hword
    have hfirst : ['n', 't', 'f', 'N', 'I', '-'].all (fun c => c != '"' && c != '[' && c != '\x7b') := by decide
    refine hscalar (.word hword) ⟨c, d :: more, heq, ?_⟩ fun rest _ => scanScalar_of_word hword rest
    simpa [and_assoc] using List.all_eq_true.mp hfirst c hc
  | number hnumber =>
    refine hscalar (.number hnumber) ?_ fun rest hrest => scanScalar_of_number hnumber hrest
    obtain ⟨c, rest, rfl, hdigit | ⟨rfl, -⟩⟩ := hnumber.head
    · exact ⟨c, rest, rfl, by refine ⟨?_, ?_, ?_⟩ <;> (rintro rfl; cases hdigit)⟩
    · exact ⟨'-', rest, rfl, by decide⟩
  | @string body chars hquoted =>
    refine ⟨(Spelled.string hquoted).head, fun fuel rest hfuel _ => ?_⟩
    obtain ⟨fuel, rfl⟩ := Nat.exists_eq_add_one_of_ne_zero (Nat.ne_zero_of_lt hfuel)
    rw [List.cons_append, List.append_assoc, List.singleton_append, scanValue, scanString_of_quoted hquoted]
    rfl
  | emptyArray gap =>
    refine ⟨(Spelled.emptyArray gap).head, fun fuel rest hfuel _ => ?_⟩
    obtain ⟨fuel, rfl⟩ := Nat.exists_eq_add_one_of_ne_zero (Nat.ne_zero_of_lt hfuel)
    rw [List.cons_append, List.append_assoc, List.singleton_append, scanValue, skipBlanks_append_cons gap rfl]
    rfl
  | @array item items hitems ih =>
    refine ⟨(Spelled.array hitems).head, fun fuel rest hfuel _ => ?_⟩
    obtain ⟨fuel, rfl⟩ := Nat.exists_eq_add_one_of_ne_zero (Nat.ne_zero_of_lt hfuel)
    rw [List.cons_append, List.append_assoc, List.append_assoc, List.singleton_append, scanValue]
    split
    · rename_i heq
      obtain ⟨c, tail, htext, hc⟩ := (ih item List.mem_cons_self).head
      rw [(ih item List.mem_cons_self).skipBlanks_spelling, htext] at heq
      exact absurd (List.cons.inj heq).1 (of_mem_openers hc).2.1
    · refine scanItems_of_scans ih ?_
      simp only [List.length_append, List.length_cons, List.length_nil] at hfuel ⊢
      omega
  | emptyObject gap =>
    refine ⟨(Spelled.emptyObject gap).head, fun fuel rest hfuel _ => ?_⟩
    obtain ⟨fuel, rfl⟩ := Nat.exists_eq_add_one_of_ne_zero (Nat.ne_zero_of_lt hfuel)
    rw [List.cons_append, List.append_assoc, List.singleton_append, scanValue, skipBlanks_append_cons gap rfl]
    rfl
  | @object member members hmembers ih =>
    refine ⟨(Spelled.object hmembers).head, fun fuel rest hfuel _ => ?_⟩
    obtain ⟨fuel, rfl⟩ := Nat.exists_eq_add_one_of_ne_zero (Nat.ne_zero_of_lt hfuel)
    rw [List.cons_append, List.append_assoc, List.append_assoc, List.singleton_append, scanValue]
    split
    · rename_i heq
      rw [member.skipBlanks_spelling] at heq
      cases heq
    · refine scanMembers_of_scans ih ?_
      simp only [List.length_append, List.length_cons, List.length_nil] at hfuel ⊢
      omega

end ViewMarkup.Json
