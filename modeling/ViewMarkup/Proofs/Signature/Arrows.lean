import Mathlib.Algebra.Order.BigOperators.Group.List
import ViewMarkup.Proofs.Signature.Coverage
import ViewMarkup.Proofs.Signature.RoundTrip

namespace ViewMarkup

namespace ParameterEntry

/-- The bracket that closes what an opening one opens. -/
def closing : Char → Char
  | '(' => ')'
  | '[' => ']'
  | '\x7b' => '\x7d'
  | _ => '>'

/-- Brackets match and nest, an arrow is no bracket, and commas stand inside brackets only. The closing brackets that
are expected come innermost first. -/
def nests : (expected : List Char) → Text → Bool
  | expected, [] => expected.isEmpty
  | expected, '=' :: '>' :: rest => nests expected rest
  | expected, c :: rest =>
    if isOpening c then nests (closing c :: expected) rest
    else if isClosing c then
      match expected with
      | [] => false
      | next :: outer => c == next && nests outer rest
    else (c != ',' || !expected.isEmpty) && nests expected rest

/-- An arrow only takes from the number of open brackets, so none is open at the end. -/
theorem openAfter_of_nests {expected : List Char} {t : Text} (hnests : nests expected t) {depth : Nat}
    (hdepth : depth ≤ expected.length) : openAfter depth t = 0 := by
  fun_induction nests expected t generalizing depth with
  | case1 expected =>
    obtain rfl := List.isEmpty_iff.mp hnests
    exact Nat.le_zero.mp hdepth
  | case2 expected rest ih =>
    apply ih hnests
    simp only [depthAfter_eq, isOpening, isClosing]
    simp
    omega
  | case3 expected c rest harrow hopening ih =>
    apply ih hnests
    rw [depthAfter_eq, if_pos hopening, List.length_cons]
    omega
  | case4 c rest harrow hopening hclosing => cases hnests
  | case5 c rest harrow hopening hclosing next outer ih =>
    apply ih (Bool.and_eq_true_iff.mp hnests).2
    rw [depthAfter_eq, if_neg hopening, if_pos hclosing]
    rw [List.length_cons] at hdepth
    omega
  | case6 expected c rest harrow hopening hclosing ih =>
    apply ih (Bool.and_eq_true_iff.mp hnests).2
    rwa [depthAfter_eq, if_neg hopening, if_neg hclosing]

/-- What is expected is closed. -/
theorem exists_isClosing {expected : List Char} {t : Text} (hnests : nests expected t) (hne : expected ≠ []) :
    ∃ c ∈ t, isClosing c := by
  fun_induction nests expected t with
  | case1 expected => exact absurd (List.isEmpty_iff.mp hnests) hne
  | case2 expected rest ih => exact ⟨'>', by simp, rfl⟩
  | case3 expected c rest harrow hopening ih =>
    obtain ⟨d, hd, hclosing⟩ := ih hnests (List.cons_ne_nil _ _)
    exact ⟨d, List.mem_cons_of_mem c hd, hclosing⟩
  | case4 c rest harrow hopening hclosing => cases hnests
  | case5 c rest harrow hopening hclosing next outer ih => exact ⟨c, List.mem_cons_self, hclosing⟩
  | case6 expected c rest harrow hopening hclosing ih =>
    obtain ⟨d, hd, hclosing⟩ := ih (Bool.and_eq_true_iff.mp hnests).2 hne
    exact ⟨d, List.mem_cons_of_mem c hd, hclosing⟩

/-- A bracket is closed behind every comma. -/
theorem exists_isClosing_of_comma {expected : List Char} {before after : Text}
    (hnests : nests expected (before ++ ',' :: after)) : ∃ c ∈ after, isClosing c := by
  generalize ht : before ++ ',' :: after = t at hnests
  fun_induction nests expected t generalizing before with
  | case1 expected => simp at ht
  | case2 expected rest ih =>
    obtain _ | ⟨first, _ | ⟨second, before⟩⟩ := before
    · cases ht
    · cases ht
    · simp only [List.cons_append, List.cons.injEq] at ht
      exact ih ht.2.2 hnests
  | case3 expected c rest harrow hopening ih =>
    cases before with
    | nil =>
      obtain ⟨rfl, -⟩ := List.cons.inj ht
      cases hopening
    | cons first before => exact ih (List.cons.inj ht).2 hnests
  | case4 c rest harrow hopening hclosing => cases hnests
  | case5 c rest harrow hopening hclosing next outer ih =>
    cases before with
    | nil =>
      obtain ⟨rfl, -⟩ := List.cons.inj ht
      cases hclosing
    | cons first before => exact ih (List.cons.inj ht).2 (Bool.and_eq_true_iff.mp hnests).2
  | case6 expected c rest harrow hopening hclosing ih =>
    obtain ⟨hcomma, hrest⟩ := Bool.and_eq_true_iff.mp hnests
    cases before with
    | nil =>
      obtain ⟨rfl, rfl⟩ := List.cons.inj ht
      apply exists_isClosing hrest
      simpa using hcomma
    | cons first before => exact ih (List.cons.inj ht).2 hrest

theorem isClosing_eq_false_of_isOpening {c : Char} (hopening : isOpening c) : isClosing c = false := by
  simp only [isOpening, Bool.or_eq_true, beq_iff_eq, or_assoc] at hopening
  obtain rfl | rfl | rfl | rfl := hopening <;> rfl

/-- The stretches up to the end of a text, with one more character behind them. -/
theorem forall_stretch_concat (t : Text) (c : Char) (depth : Nat) :
    (∀ stretch, stretch <:+ t ++ [c] → stretch.countP isOpening ≤ stretch.countP isClosing + depth) ↔
      ∀ stretch, stretch <:+ t → stretch.countP isOpening + (if isOpening c then 1 else 0) ≤
        stretch.countP isClosing + (if isClosing c then 1 else 0) + depth := by
  constructor
  · intro hall stretch hstretch
    have hlonger := hall (stretch ++ [c]) (List.suffix_concat_iff.mpr (.inr ⟨stretch, rfl, hstretch⟩))
    simpa [List.countP_append, List.countP_singleton] using hlonger
  · intro hall stretch hstretch
    obtain rfl | ⟨shorter, rfl, hshorter⟩ := List.suffix_concat_iff.mp hstretch
    · simp
    · simpa [List.countP_append, List.countP_singleton] using hall shorter hshorter

/-- The number of brackets that are open behind a text is the most by which a stretch up to its end opens more
brackets than it closes. -/
theorem openAfter_le_iff (t : Text) (depth : Nat) :
    openAfter 0 t ≤ depth ↔
      ∀ stretch, stretch <:+ t → stretch.countP isOpening ≤ stretch.countP isClosing + depth := by
  induction t using List.reverseRecOn generalizing depth with
  | nil => simp
  | append_singleton t c ih =>
    rw [forall_stretch_concat, openAfter_append, openAfter_cons, openAfter_nil, depthAfter_eq]
    by_cases hopening : isOpening c
    · rw [if_pos hopening, if_pos hopening, if_neg (by simp [isClosing_eq_false_of_isOpening hopening])]
      cases depth with
      | zero =>
        refine iff_of_false (by omega) fun hall => ?_
        have hnone := hall [] List.nil_suffix
        simp at hnone
      | succ depth =>
        rw [Nat.add_le_add_iff_right, ih]
        refine forall₂_congr fun stretch _ => ?_
        omega
    · rw [if_neg hopening, if_neg hopening]
      by_cases hclosing : isClosing c
      · rw [if_pos hclosing, if_pos hclosing, Nat.sub_le_iff_le_add, ih]
        refine forall₂_congr fun stretch _ => ?_
        omega
      · rw [if_neg hclosing, if_neg hclosing, ih]
        rfl

/-- A list with closed brackets has an entry, if it holds a character of one. -/
theorem texts_ne_nil {t : Text} (hclosed : openAfter 0 t = 0) {c : Char} (hc : c ∈ t) (hblank : isBlank c = false)
    (hcomma : c ≠ ',') : texts t ≠ [] := by
  obtain ⟨i, hi⟩ := List.mem_iff_getElem?.mp hc
  have hplain : ¬ IsSeparator 0 t i := by
    rintro ⟨hseparator, _⟩
    rw [hi] at hseparator
    exact hcomma (Option.some.inj hseparator)
  obtain ⟨entry, hentry, _⟩ := (exists_mem_scan_iff 0 t hi hblank hplain).mpr (.inl hclosed)
  exact List.ne_nil_of_mem (List.mem_map_of_mem hentry)

/-- No comma of a text separates exactly if in front of each of them some stretch opens more brackets than it
closes. -/
theorem unsplit_iff_stretch {t : Text} :
    Unsplit 0 t ↔ ∀ before after, t = before ++ ',' :: after →
      ∃ stretch, stretch <:+ before ∧ stretch.countP isClosing < stretch.countP isOpening := by
  rw [unsplit_iff]
  refine forall₃_congr fun before after _ => ?_
  have hclosed := openAfter_le_iff before 0
  rw [Nat.le_zero] at hclosed
  rw [Ne, hclosed]
  push Not
  rfl

end ParameterEntry

namespace WrittenParameter.WellFormed

open ParameterEntry

variable {written : WrittenParameter}

/-- The name stands in an entry. -/
theorem texts_ne_nil_of_name (hwritten : written.WellFormed) {t : Text} (hclosed : openAfter 0 t = 0)
    (hname : ∀ c ∈ written.parameter.name, c ∈ t) : texts t ≠ [] := by
  obtain ⟨c, rest, hcons, _⟩ := hwritten.isName.exists_cons
  have hc : c ∈ written.parameter.name := by
    rw [hcons]
    exact List.mem_cons_self
  have hword := hwritten.isName.word c hc
  refine texts_ne_nil hclosed (hname c hc) (isBlank_eq_false_of_isWord hword) ?_
  rintro rfl
  cases hword

/-- A comma that separates cuts the parameter in two, each with an entry. -/
theorem one_lt_length_texts (hwritten : written.WellFormed) (hnests : nests [] written.parameter.type)
    (hsplit : ¬ Unsplit 0 written.parameter.type) : 1 < (texts written.text).length := by
  rw [unsplit_iff] at hsplit
  push Not at hsplit
  obtain ⟨front, back, htype, hfront⟩ := hsplit
  have htext : written.text =
      (written.before ++ written.lead ++ front) ++ ',' :: (back ++ written.after) := by
    simp [text, body_eq, htype]
  have hclosed : openAfter 0 (written.before ++ written.lead ++ front) = 0 := by
    rw [openAfter_append, openAfter_append, openAfter_of_plain _ hwritten.mark_of_before,
      openAfter_of_plain _ hwritten.mark_of_lead, hfront]
  have hrest : openAfter 0 (back ++ written.after) = 0 := by
    rw [← openAfter_append_comma hclosed, ← htext, hwritten.openAfter_text]
    exact openAfter_of_nests hnests (Nat.zero_le _)
  have hfirst : texts (written.before ++ written.lead ++ front) ≠ [] := by
    apply hwritten.texts_ne_nil_of_name hclosed
    intro c hc
    simp [lead, hc]
  have hsecond : texts (back ++ written.after) ≠ [] := by
    rw [htype] at hnests
    obtain ⟨c, hc, hclosing⟩ := exists_isClosing_of_comma hnests
    have hmark : isMark c := by simp [isMark, hclosing]
    apply texts_ne_nil hrest (List.mem_append_left _ hc)
    · by_contra hblank
      rw [isMark_eq_false_of_isBlank (by simpa using hblank)] at hmark
      cases hmark
    · rintro rfl
      cases hclosing
  rw [htext, texts_append_comma hclosed, List.length_append]
  have hone := List.length_pos_of_ne_nil hfirst
  have htwo := List.length_pos_of_ne_nil hsecond
  omega

end WrittenParameter.WellFormed

namespace Signature

open ParameterEntry

section Written

variable {name : Text} {parameters : List WrittenParameter}

/-- If as many entries stand in a list as parameters are written, no parameter is split. -/
theorem unsplit_of_length (hparameters : ∀ written ∈ parameters, written.WellFormed)
    (hnests : ∀ written ∈ parameters, nests [] written.parameter.type)
    (hlength : (parameters.flatMap fun written => texts written.text).length = parameters.length) :
    ∀ written ∈ parameters, Unsplit 0 written.parameter.type := by
  by_contra hsplit
  push Not at hsplit
  obtain ⟨split, hmem, hsplit⟩ := hsplit
  have hone : ∀ written ∈ parameters, 1 ≤ (texts written.text).length := by
    intro written hwritten
    have hvalid := hparameters written hwritten
    have hclosed := openAfter_of_nests (hnests written hwritten) (Nat.zero_le _)
    apply List.length_pos_of_ne_nil
    apply hvalid.texts_ne_nil_of_name (hvalid.openAfter_text.trans hclosed)
    intro c hc
    simp [WrittenParameter.text, WrittenParameter.body, hc]
  have hmore := List.sum_lt_sum (fun _ => 1) (fun written => (texts written.text).length) hone
    ⟨split, hmem, (hparameters split hmem).one_lt_length_texts (hnests split hmem) hsplit⟩
  rw [List.length_flatMap] at hlength
  simp [hlength] at hmore

/-- A signature with types whose brackets match and nest is read back exactly if in front of each comma of a type some
stretch of the type opens more brackets than it closes, where the head of an arrow counts as a closing one. -/
theorem read_written_iff (hne : name ≠ []) (hname : ∀ c ∈ name, isWord c)
    (hparameters : ∀ written ∈ parameters, written.WellFormed)
    (hnests : ∀ written ∈ parameters, nests [] written.parameter.type) (line : Int) :
    read (written name parameters) line = (⟨name, parameters.map WrittenParameter.parameter⟩, []) ↔
      ∀ written ∈ parameters, ∀ before after, written.parameter.type = before ++ ',' :: after →
        ∃ stretch, stretch <:+ before ∧ stretch.countP isClosing < stretch.countP isOpening := by
  have hclosed : ∀ written ∈ parameters, openAfter 0 written.parameter.type = 0 :=
    fun written hwritten => openAfter_of_nests (hnests written hwritten) (Nat.zero_le _)
  trans ∀ written ∈ parameters, Unsplit 0 written.parameter.type
  · constructor
    · intro hread
      rw [read_eq_iff (parts?_written hne hname hparameters),
        texts_written hparameters hclosed] at hread
      apply unsplit_of_length hparameters hnests
      simpa using congrArg List.length hread
    · intro hunsplit
      apply read_of_bodies hne hname hparameters
      exact texts_of_unsplit hparameters hclosed hunsplit
  · exact forall₂_congr fun written _ => unsplit_iff_stretch

end Written

/-- A parameter with an arrow and a comma behind it inside the same brackets. -/
def submitParameters : List WrittenParameter :=
  [⟨⟨"onSubmit", "(done: () => void, value: string) => void", false⟩, [], [], [], []⟩]

/-- An arrow behind the brackets lays no comma bare; one inside of them does. -/
theorem read_written_iff_submit :
    read (written "Chart" chartParameters) 0 =
        (⟨"Chart", chartParameters.map WrittenParameter.parameter⟩, []) ∧
      ¬ read (written "Form" submitParameters) 0 =
        (⟨"Form", submitParameters.map WrittenParameter.parameter⟩, []) := by
  constructor
  · rw [read_written_iff (by decide) (List.all_eq_true.mp (by decide)) (by decide +kernel) (by decide +kernel)]
    have hunsplit : ∀ written ∈ chartParameters, Unsplit 0 written.parameter.type := by decide +kernel
    exact fun written hwritten => unsplit_iff_stretch.mp (hunsplit written hwritten)
  · rw [read_written_iff (by decide) (List.all_eq_true.mp (by decide)) (by decide +kernel) (by decide +kernel)]
    intro hstretches
    have hsplit : ∃ written ∈ submitParameters, ¬ Unsplit 0 written.parameter.type := by decide +kernel
    obtain ⟨written, hwritten, hsplit⟩ := hsplit
    exact hsplit (unsplit_iff_stretch.mpr (hstretches written hwritten))

/-- The brackets of the type match and nest and its comma stands inside of them, and yet it is read as the types of
two parameters. -/
theorem arrow_splits_type :
    (∀ written ∈ submitParameters, written.WellFormed ∧ nests [] written.parameter.type) ∧
      read (written "Form" submitParameters) 0 =
        (⟨"Form", [⟨"onSubmit", "(done: () => void", false⟩, ⟨"value", "string) => void", false⟩]⟩, []) := by
  decide +kernel

end Signature

end ViewMarkup
