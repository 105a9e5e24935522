import ViewMarkup.Proofs.Fields
import ViewMarkup.Proofs.Json.Grammar
import ViewMarkup.Proofs.Json.OneLine

namespace ViewMarkup

namespace Text

theorem hex_one {n : Nat} (hn : n < 16) : hex 1 n = [n.digitChar] := by
  simp [hex, Nat.toDigits_of_lt_base hn]

/-- The last digit of a numeral that is wide enough. -/
theorem hex_succ (width n : Nat) : hex (width + 2) n = hex (width + 1) (n / 16) ++ [(n % 16).digitChar] := by
  by_cases hlt : n < 16
  · rw [hex, hex, Nat.toDigits_of_lt_base hlt, Nat.div_eq_of_lt hlt, Nat.mod_eq_of_lt hlt,
      Nat.toDigits_of_lt_base (by decide)]
    simp [List.replicate_succ', Nat.digitChar]
  · rw [hex, hex, Nat.toDigits_of_base_le (by decide) (by omega)]
    simp

/-- A numeral has no leading zero. -/
theorem head_ofNat {n : Nat} (hzero : (ofNat n).head? = some '0') : ofNat n = ['0'] := by
  induction n using Nat.strongRecOn with
  | ind n ih =>
    by_cases hlt : n < 10
    · rw [ofNat, Nat.toDigits_of_lt_base hlt] at hzero ⊢
      rw [Option.some.inj hzero]
    · have hdigits : ofNat n = ofNat (n / 10) ++ [(n % 10).digitChar] :=
        Nat.toDigits_of_base_le (by decide) (by omega)
      rw [hdigits, List.head?_append_of_ne_nil _ (ofNat_ne_nil _)] at hzero
      have hvalue := congrArg digitsValue (ih (n / 10) (by omega) hzero)
      rw [digitsValue_ofNat] at hvalue
      have hten : n / 10 = 0 := hvalue
      omega

end Text

namespace Json

theorem hexValue?_digitChar {d : Nat} (hd : d < 16) : hexValue? d.digitChar = some d := by
  revert d
  decide

/-- Four digits spell a unit. -/
theorem isUnit_hex {n : Nat} (hn : n < 0x10000) : IsUnit (Text.hex 4 n) n := by
  have hhex : Text.hex 4 n = [(n / 16 / 16 / 16).digitChar, (n / 16 / 16 % 16).digitChar, (n / 16 % 16).digitChar,
      (n % 16).digitChar] := by
    rw [Text.hex_succ, Text.hex_succ, Text.hex_succ, Text.hex_one (by omega)]
    rfl
  refine ⟨by rw [hhex]; rfl, ?_⟩
  rw [hhex, unit?]
  simp only [hexValue?_digitChar (show n / 16 / 16 / 16 < 16 by omega),
    hexValue?_digitChar (Nat.mod_lt _ (show 16 > 0 by decide)), Option.pure_def, Option.bind_eq_bind, Option.bind_some, Option.some.injEq]
  omega

/-- A character is no half of a pair. -/
theorem unitChar_toNat (c : Char) : isHighSurrogate c.toNat = false ∧ unitChar c.toNat = c := by
  have hvalid : c.toNat < 0xd800 ∨ 0xdfff < c.toNat ∧ c.toNat < 0x110000 := c.valid
  have hhigh : isHighSurrogate c.toNat = false := by
    simp [isHighSurrogate]
    omega
  have hlow : isLowSurrogate c.toNat = false := by
    simp [isLowSurrogate]
    omega
  exact ⟨hhigh, by simp [unitChar, hhigh, hlow]⟩

/-- A character beyond the units is a pair. -/
theorem pairChar_toNat {c : Char} (hlarge : 0x10000 ≤ c.toNat) :
    isHighSurrogate (0xd800 + (c.toNat - 0x10000) / 0x400) ∧ isLowSurrogate (0xdc00 + (c.toNat - 0x10000) % 0x400) ∧
      pairChar (0xd800 + (c.toNat - 0x10000) / 0x400) (0xdc00 + (c.toNat - 0x10000) % 0x400) = c := by
  have hvalid : c.toNat < 0xd800 ∨ 0xdfff < c.toNat ∧ c.toNat < 0x110000 := c.valid
  refine ⟨?_, ?_, ?_⟩
  · simp only [isHighSurrogate, Bool.and_eq_true, decide_eq_true_eq]
    omega
  · simp only [isLowSurrogate, Bool.and_eq_true, decide_eq_true_eq]
    omega
  · have hsum : 0x10000 + (0xd800 + (c.toNat - 0x10000) / 0x400 - 0xd800) * 0x400 +
        (0xdc00 + (c.toNat - 0x10000) % 0x400 - 0xdc00) = c.toNat := by omega
    rw [pairChar, hsum, Char.ofNat_toNat]

theorem quoted_unicodeEscape (c : Char) {body chars : Text} (hbody : Quoted body chars) :
    Quoted (unicodeEscape c ++ body) (c :: chars) := by
  have hvalid : c.toNat < 0xd800 ∨ 0xdfff < c.toNat ∧ c.toNat < 0x110000 := c.valid
  have hescape (n : Nat) (rest : Text) : unitEscape n ++ rest = '\\' :: 'u' :: (Text.hex 4 n ++ rest) := rfl
  unfold unicodeEscape
  dsimp only
  split
  · rename_i hsmall
    obtain ⟨hhigh, hchar⟩ := unitChar_toNat c
    have hunit := Quoted.unit (isUnit_hex hsmall) hhigh hbody
    rwa [hchar, ← hescape] at hunit
  · obtain ⟨hhigh, hlow, hchar⟩ := pairChar_toNat (c := c) (by omega)
    have hpair := Quoted.pair (isUnit_hex (by omega)) hhigh (isUnit_hex (by omega)) hlow hbody
    rwa [hchar, ← hescape, ← hescape, ← List.append_assoc] at hpair

theorem quoted_writeChar (style : JsonStyle) (c : Char) {body chars : Text} (hbody : Quoted body chars) :
    Quoted (writeChar style c ++ body) (c :: chars) := by
  have hescape (mark : Char) (hmark : (mark, c) ∈ escapes) : Quoted ('\\' :: mark :: body) (c :: chars) :=
    .escape hmark hbody
  unfold writeChar
  split
  · exact hescape '"' (by simp [escapes, *])
  split
  · exact hescape '\\' (by simp [escapes, *])
  split
  · exact hescape 'n' (by simp [escapes, *])
  split
  · exact hescape 'r' (by simp [escapes, *])
  split
  · exact hescape 't' (by simp [escapes, *])
  split
  · exact hescape 'b' (by simp [escapes, *])
  split
  · exact hescape 'f' (by simp [escapes, *])
  split
  · exact quoted_unicodeEscape c hbody
  · rename_i hquote hslash _ _ _ _ _ hplain
    refine .plain hquote hslash ?_ hbody
    simp at hplain
    omega

/-- The characters of a string are written between its quotes. -/
theorem quoted_flatMap_writeChar (style : JsonStyle) (t : Text) : Quoted (t.flatMap (writeChar style)) t := by
  induction t with
  | nil => exact .nil
  | cons c t ih => exact quoted_writeChar style c ih

theorem whole_ofNat (n : Nat) : Whole (Text.ofNat n) :=
  ⟨⟨Text.ofNat_ne_nil n, fun _ => Text.isDigit_of_mem_ofNat⟩, Text.head_ofNat⟩

/-- An integer is spelled by its numeral. -/
theorem number_ofInt {n : Int} (hlimit : (Text.ofNat n.natAbs).length ≤ integerDigitLimit) :
    Number (Text.ofInt n) (.int n) := by
  cases n with
  | ofNat n =>
    have hnumber : Number (sign false ++ Text.ofNat n) _ := .int (whole_ofNat n) hlimit
    rw [Text.digitsValue_ofNat] at hnumber
    exact hnumber
  | negSucc n =>
    have hnumber : Number (sign true ++ Text.ofNat (n + 1)) _ := .int (whole_ofNat (n + 1)) hlimit
    rw [Text.digitsValue_ofNat] at hnumber
    exact hnumber

/-- A value without floating-point numbers whose integers can be read, whose objects have distinct names, and whose
strings and names are all allowed. -/
inductive Literal (allowed : Text → Prop) : Json → Prop
  | null : Literal allowed .null
  | bool (value : Bool) : Literal allowed (.bool value)
  | int {n : Int} (hlimit : (Text.ofNat n.natAbs).length ≤ integerDigitLimit) : Literal allowed (.int n)
  | string {t : Text} (hallowed : allowed t) : Literal allowed (.string t)
  | array {items : List Json} (hitems : ∀ item ∈ items, Literal allowed item) : Literal allowed (.array items)
  | object {members : List (Text × Json)} (hnames : (members.map Prod.fst).Nodup)
      (hallowed : ∀ member ∈ members, allowed member.1) (hmembers : ∀ member ∈ members, Literal allowed member.2) :
      Literal allowed (.object members)

/-- The blank behind a comma or a colon. -/
def Gap.single : Gap := ⟨[' '], List.forall_mem_singleton.mpr rfl⟩

section Write

variable (style : JsonStyle)

/-- An item as it is written. -/
def writtenItem (before : Gap) (value : Json) : Element :=
  ⟨before, write style value, .empty, value⟩

/-- A member as it is written. -/
def writtenMember (before : Gap) (member : Text × Json) : Member :=
  ⟨before, member.1.flatMap (writeChar style), member.1, quoted_flatMap_writeChar style member.1, .empty,
    writtenItem style .single member.2⟩

theorem spelling_writtenItem (before : Gap) (value : Json) :
    (writtenItem style before value).spelling = before.chars ++ write style value := by
  simp [writtenItem, Element.spelling, Gap.empty]

theorem spelling_writtenMember (before : Gap) (member : Text × Json) :
    (writtenMember style before member).spelling =
      before.chars ++ (writeString style member.1 ++ (": " ++ write style member.2)) := by
  simp [writtenMember, Member.spelling, spelling_writtenItem, writeString, Gap.empty, Gap.single]

theorem writeItems_eq (items : List Json) :
    writeItems style items = others ((items.map (writtenItem style .single)).map Element.spelling) := by
  induction items with
  | nil => rfl
  | cons item items ih =>
    rw [writeItems, ih, List.map_cons, List.map_cons, others_cons, spelling_writtenItem]
    simp [Gap.single]

theorem writeMembers_eq (members : List (Text × Json)) :
    writeMembers style members = others ((members.map (writtenMember style .single)).map Member.spelling) := by
  induction members with
  | nil => rfl
  | cons member members ih =>
    rw [writeMembers, ih, List.map_cons, List.map_cons, others_cons, spelling_writtenMember]
    simp [Gap.single]

theorem write_array (item : Json) (items : List Json) :
    write style (.array (item :: items)) = '[' :: ((writtenItem style .empty item).spelling ++
      (others ((items.map (writtenItem style .single)).map Element.spelling) ++ [']'])) := by
  rw [write, writeItems_eq, spelling_writtenItem]
  simp [Gap.empty]

theorem write_object (member : Text × Json) (members : List (Text × Json)) :
    write style (.object (member :: members)) = '\x7b' :: ((writtenMember style .empty member).spelling ++
      (others ((members.map (writtenMember style .single)).map Member.spelling) ++ ['\x7d'])) := by
  rw [write, writeMembers_eq, spelling_writtenMember]
  simp [Gap.empty]

/-- What is written spells the value. -/
theorem spelled_write {allowed : Text → Prop} {value : Json} (hliteral : Literal allowed value) :
    Spelled (write style value) value := by
  induction hliteral with
  | null =>
    have hword : ((("null" : Text), Json.null) : Text × Json) ∈ words := by simp [words]
    exact .word hword
  | bool value =>
    have htrue : ((("true" : Text), Json.bool true) : Text × Json) ∈ words := by simp [words]
    have hfalse : ((("false" : Text), Json.bool false) : Text × Json) ∈ words := by simp [words]
    cases value with
    | true => exact .word htrue
    | false => exact .word hfalse
  | int hlimit => exact .number (number_ofInt hlimit)
  | string _ => exact .string (quoted_flatMap_writeChar style _)
  | @array items _ ih =>
    cases items with
    | nil => exact .emptyArray .empty
    | cons item items =>
      have hvalues : (writtenItem style .empty item :: items.map (writtenItem style .single)).map Element.value =
          item :: items := by
        simp [writtenItem, Function.comp_def]
      obtain ⟨hitem, hitems⟩ := List.forall_mem_cons.mp ih
      rw [write_array]
      conv_rhs => rw [← hvalues]
      exact .array (List.forall_mem_cons.mpr ⟨hitem, List.forall_mem_map.mpr hitems⟩)
  | @object members hnames _ _ ih =>
    cases members with
    | nil => exact .emptyObject .empty
    | cons member members =>
      have hfields : (writtenMember style .empty member :: members.map (writtenMember style .single)).map Member.field =
          member :: members := by
        simp [writtenMember, writtenItem, Member.field, Function.comp_def]
      obtain ⟨hmember, hmembers⟩ := List.forall_mem_cons.mp ih
      rw [write_object]
      conv_rhs => rw [← Fields.ofPairs_of_nodup hnames, ← hfields]
      exact .object (List.forall_mem_cons.mpr ⟨hmember, List.forall_mem_map.mpr hmembers⟩)

end Write

section Quotes

variable (style : JsonStyle)

theorem quote_not_mem_writeString {t : Text} (ht : '\'' ∉ t) : '\'' ∉ writeString style t := by
  have hchar : ∀ c ∈ t, '\'' ∉ writeChar style c := by
    intro c hc
    have hne : '\'' ≠ c := fun heq => ht (heq ▸ hc)
    exact not_mem_writeChar (by simp) (by decide) (by decide) (by decide) style hne
  simpa [writeString] using hchar

theorem not_mem_others {c : Char} (hc : c ≠ ',') {spellings : List Text}
    (hspellings : ∀ spelling ∈ spellings, c ∉ spelling) : c ∉ others spellings := by
  simpa [others, hc] using hspellings

/-- Single quotes are written only where they stand in a string or a name. -/
theorem quote_not_mem_write {value : Json} (hliteral : Literal (fun t => '\'' ∉ t) value) :
    '\'' ∉ write style value := by
  induction hliteral with
  | null => exact (by decide : '\'' ∉ ("null" : Text))
  | bool value =>
    cases value with
    | true => exact (by decide : '\'' ∉ ("true" : Text))
    | false => exact (by decide : '\'' ∉ ("false" : Text))
  | int _ =>
    intro hmem
    obtain hsign | hdigit := Text.of_mem_ofInt hmem
    · cases hsign
    · cases hdigit
  | string ht => exact quote_not_mem_writeString style ht
  | @array items _ ih =>
    cases items with
    | nil => exact (by decide : '\'' ∉ ("[]" : Text))
    | cons item items =>
      obtain ⟨hitem, hitems⟩ := List.forall_mem_cons.mp ih
      have hothers : '\'' ∉ others ((items.map (writtenItem style .single)).map Element.spelling) := by
        refine not_mem_others (by decide) ?_
        simpa [spelling_writtenItem, Gap.single] using hitems
      rw [write_array, spelling_writtenItem]
      simp [hitem, hothers, Gap.empty, -List.map_map]
  | @object members _ hallowed _ ih =>
    cases members with
    | nil => exact (by decide : '\'' ∉ ("\x7b\x7d" : Text))
    | cons member members =>
      have hname : ∀ member' ∈ member :: members, '\'' ∉ writeString style member'.1 :=
        fun member' hmember => quote_not_mem_writeString style (hallowed member' hmember)
      have hspelling (before : Gap) (hbefore : '\'' ∉ before.chars) : ∀ member' ∈ member :: members,
          '\'' ∉ (writtenMember style before member').spelling := by
        intro member' hmember
        rw [spelling_writtenMember]
        simp [hbefore, hname member' hmember, ih member' hmember]
      have hothers : '\'' ∉ others ((members.map (writtenMember style .single)).map Member.spelling) := by
        refine not_mem_others (by decide) ?_
        rw [List.forall_mem_map, List.forall_mem_map]
        exact fun member' hmember => hspelling .single (by decide) member' (List.mem_cons_of_mem _ hmember)
      rw [write_object]
      simp [hspelling .empty List.not_mem_nil member List.mem_cons_self, hothers, -List.map_map]

end Quotes

end Json

end ViewMarkup
