import ViewMarkup.Proofs.Json.Reading
import ViewMarkup.Proofs.Json.Writing
import ViewMarkup.Proofs.Text.Pieces
import ViewMarkup.Proofs.Value.Braced
import ViewMarkup.Value.Declared

namespace ViewMarkup

theorem isBlank_of_isGap {c : Char} (hgap : Json.isGap c) : isBlank c := by
  simp only [Json.isGap, Bool.or_eq_true, beq_iff_eq] at hgap
  obtain ((rfl | rfl) | rfl) | rfl := hgap <;> decide

theorem Text.replaceChar_of_not_mem {old new : Char} {t : Text} (ht : old ∉ t) : replaceChar old new t = t := by
  have hsame : ∀ c ∈ t, (if c = old then new else c) = c :=
    fun c hc => if_neg (ne_of_mem_of_not_mem hc ht)
  exact (List.map_congr_left hsame).trans (List.map_id t)

section References

open ReferenceState

theorem foldl_step_invalid (t : Text) : t.foldl step .invalid = .invalid := by
  induction t with
  | nil => rfl
  | cons c t ih => exact ih

/-- A reference starts with a name. -/
theorem isReference_cons {c : Char} (hc : isHead c = false) (t : Text) : isReference (c :: t) = false := by
  have hfirst : step .start c = .invalid := by simp [step, hc]
  rw [isReference, List.foldl_cons, hfirst, foldl_step_invalid]

end References

namespace Json

section Spelled

variable {t : Text} {value : Json}

theorem Spelled.ne_nil (hspelled : Spelled t value) : t ≠ [] := by
  obtain ⟨c, rest, rfl, -⟩ := hspelled.head
  exact List.cons_ne_nil c rest

theorem Spelled.trim_eq (hspelled : Spelled t value) : Text.trim t = t := by
  have hopeners : openers.all (fun c => !isBlank c) := by decide
  have henders : enders.all (fun c => !isBlank c) := by decide
  apply Text.trim_eq_self
  · obtain ⟨c, rest, rfl, hc⟩ := hspelled.head
    rintro d hd
    cases hd
    simpa using List.all_eq_true.mp hopeners c hc
  · obtain ⟨front, c, rfl, hc⟩ := hspelled.getLast
    intro d hd
    rw [List.getLast?_append_of_ne_nil _ (List.cons_ne_nil c []), List.getLast?_singleton, Option.mem_some_iff] at hd
    rw [← hd]
    simpa using List.all_eq_true.mp henders c hc

/-- Of the values only words start as names do, and they have neither calls nor members. -/
theorem Spelled.isReference_eq (hspelled : Spelled t value) : isReference t = false := by
  cases hspelled with
  | word hword =>
    have hwords : ∀ word ∈ words, isReference word.1 = false := by
      simp only [words, List.forall_mem_cons]
      decide
    exact hwords _ hword
  | number hnumber =>
    obtain ⟨c, rest, rfl, hdigit | ⟨rfl, -⟩⟩ := hnumber.head
    · have hdigits : ['0', '1', '2', '3', '4', '5', '6', '7', '8', '9'].all (fun c => !ReferenceState.isHead c) := by
        decide
      have hhead := List.all_eq_true.mp hdigits c (mem_digits_of_isDigit hdigit)
      exact isReference_cons (by simpa using hhead) rest
    · exact isReference_cons (by decide) rest
  | string _ => exact isReference_cons (by decide) _
  | emptyArray _ | array _ => exact isReference_cons (by decide) _
  | emptyObject _ | object _ => exact isReference_cons (by decide) _

end Spelled

/-- Trimming takes away the blanks around the value. -/
theorem Element.trim_spelling {element : Element} (hspelled : Spelled element.text element.value) :
    Text.trim element.spelling = element.text := by
  have hbetween := Text.trim_between (fun c hc => isBlank_of_isGap (element.before.blank c hc))
    (fun c hc => isBlank_of_isGap (element.after.blank c hc)) hspelled.ne_nil hspelled.trim_eq
  rw [Element.spelling, ← List.append_assoc]
  exact hbetween.1

theorem Spelled.document {t : Text} {value : Json} (hspelled : Spelled t value) : Document t value :=
  ⟨⟨.empty, t, .empty, value⟩, by simp [Element.spelling, Gap.empty], rfl, hspelled⟩

theorem document_of_write {allowed : Text → Prop} {t : Text} {value : Json} (hliteral : Literal allowed value)
    (hwrite : write .unicode value = t) : Document t value :=
  hwrite ▸ (spelled_write .unicode hliteral).document

end Json

namespace Value

/-- JSON is no reference, so that only its single quotes matter. -/
theorem declared_eq {t : Text} {v : Json} (hdocument : Json.Document t v) :
    declared t = match Json.read (Text.replaceChar '\'' '"' (Text.trim t)) with
      | .ok value => .ok (.literal value)
      | .error (.integerTooLong digits) => .error (.integerTooLong digits)
      | .error error =>
        match braced? (Text.trim t) with
        | some raw => .ok (.expression raw)
        | none => .error error := by
  obtain ⟨element, rfl, rfl, hspelled⟩ := hdocument
  rw [declared, Json.Element.trim_spelling hspelled, hspelled.isReference_eq]
  rfl

/-- JSON without single quotes is read as it is. -/
theorem declared_of_not_mem {t : Text} {v : Json} (hdocument : Json.Document t v) (hquote : '\'' ∉ t) :
    declared t = .ok (.literal v) := by
  rw [declared_eq hdocument, Text.replaceChar_of_not_mem (Text.not_mem_trim hquote)]
  obtain ⟨element, rfl, rfl, hspelled⟩ := hdocument
  rw [Json.Element.trim_spelling hspelled, Json.read_eq_ok_iff.mpr hspelled.document]

/-- JSON is read as the value that it spells with double quotes in place of single ones. -/
theorem declared_eq_literal_iff {t : Text} {v : Json} (hdocument : Json.Document t v) (w : Json) :
    declared t = .ok (.literal w) ↔ Json.Document (Text.replaceChar '\'' '"' (Text.trim t)) w := by
  rw [declared_eq hdocument, ← Json.read_eq_ok_iff]
  cases Json.read (Text.replaceChar '\'' '"' (Text.trim t)) with
  | ok value => simp
  | error error =>
    cases error with
    | integerTooLong digits => simp
    | malformed => cases braced? (Text.trim t) <;> simp

/-- JSON that is malformed with double quotes in place of single ones is an expression if it is a pair of braces. -/
theorem declared_eq_expression_iff {t : Text} {v : Json} (hdocument : Json.Document t v) (raw : Text) :
    declared t = .ok (.expression raw) ↔
      (∃ fault line column offset, Json.read (Text.replaceChar '\'' '"' (Text.trim t)) =
        .error (.malformed fault line column offset)) ∧ braced? (Text.trim t) = some raw := by
  rw [declared_eq hdocument]
  cases Json.read (Text.replaceChar '\'' '"' (Text.trim t)) with
  | ok value => simp
  | error error =>
    cases error with
    | integerTooLong digits => simp
    | malformed => cases braced? (Text.trim t) <;> simp

/-- What a declaration makes of JSON: the value itself if there are no single quotes, and otherwise the value that the
text spells with double quotes in their place, or an expression if it spells none and is one pair of braces. -/
theorem declared_of_document {t : Text} {v : Json} (hdocument : Json.Document t v) :
    ('\'' ∉ t → declared t = .ok (.literal v)) ∧
      (∀ w, declared t = .ok (.literal w) ↔ Json.Document (Text.replaceChar '\'' '"' (Text.trim t)) w) ∧
      ∀ raw, declared t = .ok (.expression raw) ↔
        (∃ fault line column offset, Json.read (Text.replaceChar '\'' '"' (Text.trim t)) =
          .error (.malformed fault line column offset)) ∧
        ∃ body, body ≠ [] ∧ '\x7b' ∉ body ∧ '\x7d' ∉ body ∧ Text.trim t = '\x7b' :: (body ++ ['\x7d']) ∧
          raw = Text.trim body := by
  refine ⟨declared_of_not_mem hdocument, declared_eq_literal_iff hdocument, fun raw => ?_⟩
  rw [declared_eq_expression_iff hdocument, braced?_eq_some_iff (Text.trim_trim t)]

/-- A member that the single quotes inside a string add. -/
theorem declared_of_document_member :
    Json.Document "\x7b\"a\": \"b', 'c': 'd\"\x7d" (.object [("a", .string "b', 'c': 'd")]) ∧
      declared "\x7b\"a\": \"b', 'c': 'd\"\x7d" =
        .ok (.literal (.object [("a", .string "b"), ("c", .string "d")])) := by
  have hone : Json.Literal (fun _ => True) (.object [("a", .string "b', 'c': 'd")]) :=
    .object (by decide) (fun _ _ => trivial) (List.forall_mem_singleton.mpr (.string trivial))
  have htwo : Json.Literal (fun _ => True) (.object [("a", .string "b"), ("c", .string "d")]) :=
    .object (by decide) (fun _ _ => trivial)
      (List.forall_mem_cons.mpr ⟨.string trivial, List.forall_mem_singleton.mpr (.string trivial)⟩)
  have hdocument : Json.Document "\x7b\"a\": \"b', 'c': 'd\"\x7d" (.object [("a", .string "b', 'c': 'd")]) :=
    Json.document_of_write hone (by decide +kernel)
  exact ⟨hdocument, ((declared_of_document hdocument).2.1 _).mpr (Json.document_of_write htwo (by decide +kernel))⟩

/-- Single quotes inside a string may read as its end: one item becomes two. -/
theorem declared_splits_string :
    Json.Document "[\"a', 'b\"]" (.array [.string "a', 'b"]) ∧
      declared "[\"a', 'b\"]" = .ok (.literal (.array [.string "a", .string "b"])) ∧
      Json.array [.string "a", .string "b"] ≠ .array [.string "a', 'b"] := by
  have hstrings (items : List Text) : Json.Literal (fun _ => True) (.array (items.map .string)) :=
    .array (List.forall_mem_map.mpr fun _ _ => .string trivial)
  have hdocument : Json.Document "[\"a', 'b\"]" (.array [.string "a', 'b"]) :=
    Json.document_of_write (hstrings ["a', 'b"]) (by decide +kernel)
  have hread : Json.Document (Text.replaceChar '\'' '"' (Text.trim "[\"a', 'b\"]"))
      (.array [.string "a", .string "b"]) :=
    Json.document_of_write (hstrings ["a", "b"]) (by decide +kernel)
  exact ⟨hdocument, (declared_eq_literal_iff hdocument _).mpr hread, by simp⟩

end Value

end ViewMarkup
