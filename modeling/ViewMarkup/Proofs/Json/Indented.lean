import ViewMarkup.Proofs.Json.Reading
import ViewMarkup.Proofs.Json.Writing

namespace ViewMarkup

/-- A text of ASCII characters. -/
def Text.IsAscii (t : Text) : Prop :=
  ∀ c ∈ t, c.toNat < 128

namespace Text

instance (t : Text) : Decidable t.IsAscii :=
  decidable_of_iff (t.all fun c => c.toNat < 128) (by simp [IsAscii])

variable {t u : Text}

@[simp] theorem isAscii_nil : IsAscii [] :=
  List.forall_mem_nil _

@[simp] theorem isAscii_cons {c : Char} : IsAscii (c :: t) ↔ c.toNat < 128 ∧ t.IsAscii :=
  List.forall_mem_cons

@[simp] theorem isAscii_append : IsAscii (t ++ u) ↔ t.IsAscii ∧ u.IsAscii :=
  List.forall_mem_append

theorem IsAscii.append (ht : t.IsAscii) (hu : u.IsAscii) : IsAscii (t ++ u) :=
  isAscii_append.mpr ⟨ht, hu⟩

theorem IsAscii.of_subset (ht : t.IsAscii) (hsubset : u ⊆ t) : u.IsAscii :=
  fun c hc => ht c (hsubset hc)

@[simp] theorem isAscii_replicate (count : Nat) {c : Char} (hc : c.toNat < 128) :
    IsAscii (List.replicate count c) := by
  intro d hd
  rwa [List.eq_of_mem_replicate hd]

theorem isAscii_ofNat (n : Nat) : IsAscii (ofNat n) := fun _ hc =>
  (toNat_lt_of_isDigit (isDigit_of_mem_ofNat hc)).trans (by decide)

theorem isAscii_ofInt (n : Int) : IsAscii (ofInt n) := by
  cases n with
  | ofNat n => exact isAscii_ofNat n
  | negSucc n => exact isAscii_cons.mpr ⟨by decide, isAscii_ofNat (n + 1)⟩

theorem toNat_digitChar_lt (d : Nat) : d.digitChar.toNat < 128 := by
  by_cases hlt : d < 16
  · revert d
    decide
  · obtain ⟨n, rfl⟩ := Nat.exists_eq_add_of_le' (Nat.le_of_not_lt hlt)
    have hnone : (n + 16).digitChar = '*' := by simp [Nat.digitChar]
    rw [hnone]
    decide

theorem isAscii_hex (width n : Nat) : IsAscii (hex width n) := by
  intro c hc
  by_contra hbeyond
  refine not_mem_hex (fun d hd => hbeyond ?_) width n hc
  rw [hd]
  exact toNat_digitChar_lt d

end Text

namespace DecimalLayout

variable {layout : DecimalLayout} (hplus : layout.exponentPlus.IsAscii)

include hplus

theorem isAscii_exponentText (exponent : Int) : (layout.exponentText exponent).IsAscii := by
  have hminus : Text.IsAscii "-".toList := by decide
  have hzeros (count : Nat) : Text.IsAscii (List.replicate count '0') := Text.isAscii_replicate count (by decide)
  simp only [exponentText, Text.isAscii_append]
  refine ⟨⟨?_, hzeros _⟩, Text.isAscii_ofNat _⟩
  split
  · exact hminus
  · exact hplus

theorem isAscii_magnitude (decimal : Decimal) : (layout.magnitude decimal).IsAscii := by
  have hdigits := Text.isAscii_ofNat decimal.digits
  have htake (count : Nat) : Text.IsAscii ((Text.ofNat decimal.digits).take count) :=
    hdigits.of_subset (List.take_subset _ _)
  have hdrop (count : Nat) : Text.IsAscii ((Text.ofNat decimal.digits).drop count) :=
    hdigits.of_subset (List.drop_subset _ _)
  have hzeros (count : Nat) : Text.IsAscii (List.replicate count '0') := Text.isAscii_replicate count (by decide)
  have htexts : Text.IsAscii "0." ∧ Text.IsAscii ".0" ∧ Text.IsAscii "." ∧ Text.IsAscii "e" := by decide
  obtain ⟨hlead, htrail, hpoint, hexponent⟩ := htexts
  simp only [magnitude]
  split
  · split
    · simp only [Text.isAscii_append, hlead, hzeros, hdigits, and_self]
    split
    · simp only [Text.isAscii_append, hdigits, hzeros, htrail, and_self]
    · simp only [Text.isAscii_append, htake, hpoint, hdrop, and_self]
  · have hfraction : Text.IsAscii (if (Text.ofNat decimal.digits).length = 1 then []
        else '.' :: (Text.ofNat decimal.digits).drop 1) := by
      split
      · exact Text.isAscii_nil
      · exact Text.isAscii_cons.mpr ⟨by decide, hdrop 1⟩
    simp only [Text.isAscii_append, htake, hfraction, hexponent, isAscii_exponentText hplus, and_self]

theorem isAscii_write (hundefined : layout.undefined.IsAscii) (hinfinite : layout.infinite.IsAscii)
    (x : Binary64) : (layout.write x).IsAscii := by
  have hminus (negative : Bool) : Text.IsAscii (if negative then "-".toList else []) := by
    cases negative <;> decide
  cases x with
  | nan => exact hundefined
  | infinity negative => exact Text.isAscii_append.mpr ⟨hminus negative, hinfinite⟩
  | finite negative significand exponent =>
    exact Text.isAscii_append.mpr ⟨hminus negative, isAscii_magnitude hplus _⟩

end DecimalLayout

namespace Json

section Ascii

theorem isAscii_unicodeEscape (c : Char) : (unicodeEscape c).IsAscii := by
  have hunit (n : Nat) : (unitEscape n).IsAscii :=
    Text.isAscii_append.mpr ⟨by decide, Text.isAscii_hex 4 n⟩
  unfold unicodeEscape
  dsimp only
  split
  · exact hunit _
  · exact Text.isAscii_append.mpr ⟨hunit _, hunit _⟩

/-- Only ASCII characters stand as they are. -/
theorem isAscii_writeChar (c : Char) : (writeChar .ascii c).IsAscii := by
  unfold writeChar
  iterate 7
    split
    · decide
  split
  · exact isAscii_unicodeEscape c
  · rename_i hplain
    have hsmall : c.toNat < 0x7f := by
      simp only [JsonStyle.ascii, Bool.or_eq_true, not_or] at hplain
      simpa using hplain.2
    exact Text.isAscii_cons.mpr ⟨hsmall.trans (by decide), Text.isAscii_nil⟩

theorem isAscii_writeString (t : Text) : (writeString .ascii t).IsAscii := by
  have hchars : Text.IsAscii (t.flatMap (writeChar .ascii)) := by
    intro d hd
    obtain ⟨c, _, hd⟩ := List.mem_flatMap.mp hd
    exact isAscii_writeChar c d hd
  exact ((by decide : Text.IsAscii "\"").append hchars).append (by decide)

theorem isAscii_lineBreak (level : Nat) : (lineBreak level).IsAscii :=
  Text.isAscii_cons.mpr ⟨by decide, Text.isAscii_replicate _ (by decide)⟩

theorem isAscii_writeScalar (value : Json) : (writeScalar .ascii value).IsAscii := by
  cases value with
  | null => exact (by decide : Text.IsAscii "null")
  | array => exact (by decide : Text.IsAscii "[]")
  | object => exact (by decide : Text.IsAscii "\x7b\x7d")
  | bool value => cases value <;> decide
  | int n => exact Text.isAscii_ofInt n
  | float x => exact DecimalLayout.isAscii_write (by decide) (by decide) (by decide) x
  | string t => exact isAscii_writeString t

mutual

/-- A value is written in ASCII characters. -/
theorem isAscii_writeIndented (level : Nat) : (value : Json) → (writeIndented .ascii level value).IsAscii
  | array (item :: items) => by
    have hopen : Text.IsAscii "[" := by decide
    have hclose : Text.IsAscii "]" := by decide
    have hitem := (hopen.append (isAscii_lineBreak (level + 1))).append (isAscii_writeIndented (level + 1) item)
    exact ((hitem.append (isAscii_writeIndentedItems level items)).append (isAscii_lineBreak level)).append hclose
  | object ((name, value) :: members) => by
    have hopen : Text.IsAscii "\x7b" := by decide
    have hcolon : Text.IsAscii ": " := by decide
    have hclose : Text.IsAscii "\x7d" := by decide
    have hname := ((hopen.append (isAscii_lineBreak (level + 1))).append (isAscii_writeString name)).append hcolon
    have hmember := hname.append (isAscii_writeIndented (level + 1) value)
    exact ((hmember.append (isAscii_writeIndentedMembers level members)).append (isAscii_lineBreak level)).append hclose
  | array [] | object [] | null | bool _ | int _ | float _ | string _ => isAscii_writeScalar _

theorem isAscii_writeIndentedItems (level : Nat) :
    (items : List Json) → (writeIndentedItems .ascii level items).IsAscii
  | [] => Text.isAscii_nil
  | item :: items => by
    have hcomma : Text.IsAscii "," := by decide
    have hitem := (hcomma.append (isAscii_lineBreak (level + 1))).append (isAscii_writeIndented (level + 1) item)
    exact hitem.append (isAscii_writeIndentedItems level items)

theorem isAscii_writeIndentedMembers (level : Nat) :
    (members : List (Text × Json)) → (writeIndentedMembers .ascii level members).IsAscii
  | [] => Text.isAscii_nil
  | (name, value) :: members => by
    have hcomma : Text.IsAscii "," := by decide
    have hcolon : Text.IsAscii ": " := by decide
    have hname := ((hcomma.append (isAscii_lineBreak (level + 1))).append (isAscii_writeString name)).append hcolon
    exact (hname.append (isAscii_writeIndented (level + 1) value)).append (isAscii_writeIndentedMembers level members)

end

end Ascii

section Blanks

/-- Blanks and then more blanks. -/
def Gap.append (gap other : Gap) : Gap :=
  ⟨gap.chars ++ other.chars, List.forall_mem_append.mpr ⟨gap.blank, other.blank⟩⟩

/-- An item with more blanks behind it. -/
def Element.pad (gap : Gap) (element : Element) : Element :=
  { element with after := element.after.append gap }

/-- A member with more blanks behind it. -/
def Member.pad (gap : Gap) (member : Member) : Member :=
  { member with element := member.element.pad gap }

theorem Element.spelling_pad (gap : Gap) (element : Element) :
    (element.pad gap).spelling = element.spelling ++ gap.chars := by
  simp [pad, spelling, Gap.append]

theorem Member.spelling_pad (gap : Gap) (member : Member) :
    (member.pad gap).spelling = member.spelling ++ gap.chars := by
  simp [pad, spelling, Element.spelling_pad]

theorem others_concat (spellings : List Text) (spelling : Text) :
    others (spellings ++ [spelling]) = others spellings ++ ',' :: spelling := by
  simp [others]

/-- Blanks may stand before the bracket that closes an array: they belong to the last item. -/
theorem Spelled.array_gap {item : Element} {items : List Element}
    (hitems : ∀ element ∈ item :: items, Spelled element.text element.value) (gap : Gap) :
    Spelled ('[' :: (item.spelling ++ (others (items.map Element.spelling) ++ (gap.chars ++ [']']))))
      (.array ((item :: items).map Element.value)) := by
  obtain rfl | ⟨front, last, rfl⟩ := List.eq_nil_or_concat' items
  · have hspelled := @Spelled.array (item.pad gap) [] (List.forall_mem_singleton.mpr (hitems item List.mem_cons_self))
    rw [Element.spelling_pad, List.append_assoc] at hspelled
    exact hspelled
  · have hlast : Spelled last.text last.value := hitems last (by simp)
    have hfront : ∀ element ∈ item :: front, Spelled element.text element.value := fun element helement =>
      hitems element (List.mem_append_left [last] helement)
    have hpad : ∀ element ∈ item :: front ++ [last.pad gap], Spelled element.text element.value :=
      List.forall_mem_append.mpr ⟨hfront, List.forall_mem_singleton.mpr hlast⟩
    have hspelled := @Spelled.array item (front ++ [last.pad gap]) hpad
    rw [List.map_append, List.map_singleton, others_concat, Element.spelling_pad] at hspelled
    rw [List.map_append, List.map_singleton, others_concat]
    simpa [Element.pad] using hspelled

/-- Blanks may stand before the brace that closes an object: they belong to the last member. -/
theorem Spelled.object_gap {member : Member} {members : List Member}
    (hmembers : ∀ entry ∈ member :: members, Spelled entry.element.text entry.element.value) (gap : Gap) :
    Spelled ('\x7b' :: (member.spelling ++ (others (members.map Member.spelling) ++ (gap.chars ++ ['\x7d']))))
      (.object (Fields.ofPairs ((member :: members).map Member.field))) := by
  obtain rfl | ⟨front, last, rfl⟩ := List.eq_nil_or_concat' members
  · have hspelled := @Spelled.object (member.pad gap) []
      (List.forall_mem_singleton.mpr (hmembers member List.mem_cons_self))
    rw [Member.spelling_pad, List.append_assoc] at hspelled
    exact hspelled
  · have hlast : Spelled last.element.text last.element.value := hmembers last (by simp)
    have hfront : ∀ entry ∈ member :: front, Spelled entry.element.text entry.element.value := fun entry hentry =>
      hmembers entry (List.mem_append_left [last] hentry)
    have hpad : ∀ entry ∈ member :: front ++ [last.pad gap], Spelled entry.element.text entry.element.value :=
      List.forall_mem_append.mpr ⟨hfront, List.forall_mem_singleton.mpr hlast⟩
    have hspelled := @Spelled.object member (front ++ [last.pad gap]) hpad
    rw [List.map_append, List.map_singleton, others_concat, Member.spelling_pad] at hspelled
    rw [List.map_append, List.map_singleton, others_concat]
    simpa [Member.pad, Member.field, Element.pad] using hspelled

end Blanks

section Indented

variable (style : JsonStyle) (level : Nat)

/-- A line break and the indentation of a level. -/
def Gap.lineBreak (level : Nat) : Gap where
  chars := Json.lineBreak level
  blank := List.forall_mem_cons.mpr ⟨rfl, fun _ hc => List.eq_of_mem_replicate hc ▸ rfl⟩

/-- An item on a line of its own. -/
def indentedItem (value : Json) : Element :=
  ⟨.lineBreak (level + 1), writeIndented style (level + 1) value, .empty, value⟩

/-- A member on a line of its own. -/
def indentedMember (member : Text × Json) : Member :=
  { writtenMember style (.lineBreak (level + 1)) member with
    element := ⟨.single, writeIndented style (level + 1) member.2, .empty, member.2⟩ }

theorem spelling_indentedItem (value : Json) :
    (indentedItem style level value).spelling = lineBreak (level + 1) ++ writeIndented style (level + 1) value := by
  simp [indentedItem, Element.spelling, Gap.empty, Gap.lineBreak]

theorem spelling_indentedMember (member : Text × Json) :
    (indentedMember style level member).spelling =
      lineBreak (level + 1) ++ (writeString style member.1 ++ (": " ++ writeIndented style (level + 1) member.2)) := by
  simp [indentedMember, writtenMember, Member.spelling, Element.spelling, writeString, Gap.empty, Gap.single,
    Gap.lineBreak]

theorem writeIndentedItems_eq (items : List Json) :
    writeIndentedItems style level items = others ((items.map (indentedItem style level)).map Element.spelling) := by
  induction items with
  | nil => rfl
  | cons item items ih =>
    rw [writeIndentedItems, ih, List.map_cons, List.map_cons, others_cons, spelling_indentedItem]
    simp

theorem writeIndentedMembers_eq (members : List (Text × Json)) :
    writeIndentedMembers style level members =
      others ((members.map (indentedMember style level)).map Member.spelling) := by
  induction members with
  | nil => rfl
  | cons member members ih =>
    rw [writeIndentedMembers, ih, List.map_cons, List.map_cons, others_cons, spelling_indentedMember]
    simp

theorem writeIndented_array (item : Json) (items : List Json) :
    writeIndented style level (.array (item :: items)) = '[' :: ((indentedItem style level item).spelling ++
      (others ((items.map (indentedItem style level)).map Element.spelling) ++ (lineBreak level ++ [']']))) := by
  have hwritten : writeIndented style level (.array (item :: items)) =
      "[" ++ lineBreak (level + 1) ++ writeIndented style (level + 1) item ++
        writeIndentedItems style level items ++ lineBreak level ++ "]" := rfl
  rw [hwritten, writeIndentedItems_eq, spelling_indentedItem]
  simp

theorem writeIndented_object (member : Text × Json) (members : List (Text × Json)) :
    writeIndented style level (.object (member :: members)) = '\x7b' :: ((indentedMember style level member).spelling ++
      (others ((members.map (indentedMember style level)).map Member.spelling) ++ (lineBreak level ++ ['\x7d']))) := by
  have hwritten : writeIndented style level (.object (member :: members)) =
      "\x7b" ++ lineBreak (level + 1) ++ writeString style member.1 ++ ": " ++
        writeIndented style (level + 1) member.2 ++ writeIndentedMembers style level members ++
        lineBreak level ++ "\x7d" := rfl
  rw [hwritten, writeIndentedMembers_eq, spelling_indentedMember]
  simp

variable {allowed : Text → Prop} {value : Json}

/-- What is written over several lines spells the value. -/
theorem spelled_writeIndented (hliteral : Literal allowed value) : Spelled (writeIndented style level value) value := by
  induction hliteral generalizing level with
  | null => exact @spelled_write style allowed _ .null
  | bool value => exact @spelled_write style allowed _ (.bool value)
  | int hlimit => exact @spelled_write style allowed _ (.int hlimit)
  | string hallowed => exact spelled_write style (.string hallowed)
  | @array items _ ih =>
    cases items with
    | nil => exact .emptyArray .empty
    | cons item items =>
      have hvalues : (indentedItem style level item :: items.map (indentedItem style level)).map Element.value =
          item :: items := by
        simp [indentedItem, Function.comp_def]
      obtain ⟨hitem, hitems⟩ := List.forall_mem_cons.mp ih
      rw [writeIndented_array]
      conv_rhs => rw [← hvalues]
      exact .array_gap
        (List.forall_mem_cons.mpr ⟨hitem _, List.forall_mem_map.mpr fun next hnext => hitems next hnext _⟩)
        (.lineBreak level)
  | @object members hnames _ _ ih =>
    cases members with
    | nil => exact .emptyObject .empty
    | cons member members =>
      have hfields : (indentedMember style level member :: members.map (indentedMember style level)).map Member.field =
          member :: members := by
        simp [indentedMember, writtenMember, Member.field, Function.comp_def]
      obtain ⟨hmember, hmembers⟩ := List.forall_mem_cons.mp ih
      rw [writeIndented_object]
      conv_rhs => rw [← Fields.ofPairs_of_nodup hnames, ← hfields]
      exact .object_gap
        (List.forall_mem_cons.mpr ⟨hmember _, List.forall_mem_map.mpr fun next hnext => hmembers next hnext _⟩)
        (.lineBreak level)

theorem read_writeIndented (hliteral : Literal allowed value) : read (writeIndented style level value) = .ok value :=
  read_eq_ok_iff.mpr ⟨⟨.empty, _, .empty, value⟩, by simp [Element.spelling, Gap.empty], rfl,
    spelled_writeIndented style level hliteral⟩

end Indented

end Json

end ViewMarkup
