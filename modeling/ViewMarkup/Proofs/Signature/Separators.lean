import Mathlib.Data.Nat.Find
import ViewMarkup.Proofs.Signature.Entries

namespace ViewMarkup.ParameterEntry

def isOpening (c : Char) : Bool :=
  c == '(' || c == '[' || c == '\x7b' || c == '<'

def isClosing (c : Char) : Bool :=
  c == ')' || c == ']' || c == '\x7d' || c == '>'

/-- The characters that decide where a list is cut. -/
def isMark (c : Char) : Bool :=
  isOpening c || isClosing c || c == ','

theorem depthAfter_eq (depth : Nat) (c : Char) :
    depthAfter depth c =
      if isOpening c then depth + 1 else if isClosing c then depth - 1 else depth := by
  simp only [depthAfter, isOpening, isClosing, Bool.or_eq_true, beq_iff_eq, or_assoc]

/-- The number of brackets open behind a text, with `depth` of them open in front of it. -/
def openAfter (depth : Nat) (t : Text) : Nat :=
  t.foldl depthAfter depth

@[simp] theorem openAfter_nil (depth : Nat) : openAfter depth [] = depth := rfl

@[simp] theorem openAfter_cons (depth : Nat) (c : Char) (t : Text) :
    openAfter depth (c :: t) = openAfter (depthAfter depth c) t := rfl

theorem openAfter_append (depth : Nat) (t u : Text) :
    openAfter depth (t ++ u) = openAfter (openAfter depth t) u :=
  List.foldl_append

theorem openAfter_append_comma {depth : Nat} {t : Text} (hclosed : openAfter depth t = 0) (u : Text) :
    openAfter depth (t ++ ',' :: u) = openAfter 0 u := by
  rw [openAfter_append, hclosed]
  rfl

/-- The character at an index is a comma outside all brackets, with `depth` brackets open in front of the
text. -/
def IsSeparator (depth : Nat) (t : Text) (i : Nat) : Prop :=
  t[i]? = some ',' ∧ openAfter depth (t.take i) = 0

instance (depth : Nat) (t : Text) : DecidablePred (IsSeparator depth t) :=
  fun i => inferInstanceAs (Decidable (t[i]? = some ',' ∧ openAfter depth (t.take i) = 0))

/-- No comma of the text stands outside all brackets. -/
def Unsplit (depth : Nat) (t : Text) : Prop :=
  ∀ i, ¬ IsSeparator depth t i

section Separators

variable {depth : Nat} {t u : Text}

instance : Decidable (Unsplit depth t) :=
  decidable_of_iff (∀ i < t.length, ¬ IsSeparator depth t i)
    ⟨fun hall i hseparator => hall i (List.getElem?_eq_some_iff.mp hseparator.1).1 hseparator, fun hall i _ => hall i⟩

theorem isSeparator_append_of_lt {i : Nat} (hi : i < t.length) :
    IsSeparator depth (t ++ u) i ↔ IsSeparator depth t i := by
  rw [IsSeparator, IsSeparator, List.getElem?_append_left hi, List.take_append_of_le_length hi.le]

theorem isSeparator_append_add (i : Nat) :
    IsSeparator depth (t ++ u) (t.length + i) ↔ IsSeparator (openAfter depth t) u i := by
  rw [IsSeparator, IsSeparator, List.getElem?_append_right (by omega), Nat.add_sub_cancel_left,
    List.take_length_add_append, openAfter_append]

theorem isSeparator_cons_succ {c : Char} (i : Nat) :
    IsSeparator depth (c :: t) (i + 1) ↔ IsSeparator (depthAfter depth c) t i :=
  Iff.rfl

/-- A comma behind closed brackets is a separator. -/
theorem isSeparator_length (hclosed : openAfter depth t = 0) : IsSeparator depth (t ++ ',' :: u) t.length := by
  refine ⟨by simp, ?_⟩
  rwa [List.take_left]

theorem unsplit_iff : Unsplit depth t ↔ ∀ before after, t = before ++ ',' :: after → openAfter depth before ≠ 0 := by
  constructor
  · rintro hunsplit before after rfl hclosed
    exact hunsplit before.length (isSeparator_length hclosed)
  · rintro hall i ⟨hcomma, hclosed⟩
    obtain ⟨hlt, hcomma⟩ := List.getElem?_eq_some_iff.mp hcomma
    refine hall (t.take i) (t.drop (i + 1)) ?_ hclosed
    rw [← hcomma, List.getElem_cons_drop, List.take_append_drop]

theorem isSeparator_append_comma (hclosed : openAfter depth t = 0) (i : Nat) :
    IsSeparator depth (t ++ ',' :: u) (t.length + i + 1) ↔ IsSeparator 0 u i := by
  rw [Nat.add_assoc, isSeparator_append_add, hclosed]
  exact isSeparator_cons_succ i

theorem Unsplit.append (ht : Unsplit depth t) (hu : Unsplit (openAfter depth t) u) :
    Unsplit depth (t ++ u) := by
  intro i hseparator
  by_cases hi : i < t.length
  · exact ht i ((isSeparator_append_of_lt hi).mp hseparator)
  · obtain ⟨j, rfl⟩ := Nat.exists_eq_add_of_le (Nat.not_lt.mp hi)
    exact hu j ((isSeparator_append_add j).mp hseparator)

theorem Unsplit.tail {c : Char} (hsplit : Unsplit depth (c :: t)) : Unsplit (depthAfter depth c) t :=
  fun i hseparator => hsplit (i + 1) ((isSeparator_cons_succ i).mpr hseparator)

/-- A text without brackets and commas neither opens nor cuts anything. -/
theorem openAfter_of_plain (depth : Nat) (hplain : ∀ c ∈ t, isMark c = false) : openAfter depth t = depth := by
  induction t with
  | nil => rfl
  | cons c t ih =>
    obtain ⟨hc, ht⟩ := List.forall_mem_cons.mp hplain
    simp only [isMark, Bool.or_eq_false_iff] at hc
    rw [openAfter_cons, depthAfter_eq, hc.1.1, hc.1.2]
    exact ih ht

theorem unsplit_of_plain (depth : Nat) (hplain : ∀ c ∈ t, isMark c = false) : Unsplit depth t := by
  rintro i ⟨hcomma, _⟩
  have hmark := hplain ',' (List.mem_of_getElem? hcomma)
  cases hmark

/-- A text is free of separators, or it is cut by its first one. -/
theorem unsplit_or_exists (t : Text) :
    Unsplit 0 t ∨ ∃ first rest, t = first ++ ',' :: rest ∧ openAfter 0 first = 0 ∧ Unsplit 0 first := by
  by_cases hexists : ∃ i, IsSeparator 0 t i
  · have hseparator := Nat.find_spec hexists
    have hmin {j : Nat} (hj : j < Nat.find hexists) : ¬ IsSeparator 0 t j := Nat.find_min hexists hj
    generalize Nat.find hexists = i at hseparator hmin
    obtain ⟨hlt, hcomma⟩ := List.getElem?_eq_some_iff.mp hseparator.1
    have hsplit : t = t.take i ++ ',' :: t.drop (i + 1) := by
      rw [← hcomma, List.getElem_cons_drop, List.take_append_drop]
    refine .inr ⟨t.take i, t.drop (i + 1), hsplit, hseparator.2, fun j hj => ?_⟩
    have hjlt : j < (t.take i).length := (List.getElem?_eq_some_iff.mp hj.1).1
    apply hmin (hjlt.trans_le (List.length_take_le i t))
    rw [hsplit]
    exact (isSeparator_append_of_lt hjlt).mpr hj
  · exact .inl (not_exists.mp hexists)

/-- Induction along the separators of a list, from the first one on. -/
@[elab_as_elim] theorem separatorInduction {motive : Text → Prop} (t : Text)
    (unsplit : ∀ t, Unsplit 0 t → motive t)
    (comma : ∀ first rest, openAfter 0 first = 0 → Unsplit 0 first → motive rest →
      motive (first ++ ',' :: rest)) : motive t := by
  induction hlength : t.length using Nat.strong_induction_on generalizing t with
  | _ length ih =>
    obtain hunsplit | ⟨first, rest, rfl, hclosed, hfirst⟩ := unsplit_or_exists t
    · exact unsplit t hunsplit
    · refine comma first rest hclosed hfirst (ih rest.length ?_ rest rfl)
      rw [← hlength, List.length_append, List.length_cons]
      omega

end Separators

section Scan

variable {column depth : Nat} {piece t : Text}

/-- A comma behind closed brackets cuts the list, whatever was cut before. -/
theorem scan_append_comma (hclosed : openAfter depth t = 0) (rest : Text) :
    scan column depth piece (t ++ ',' :: rest) =
      scan column depth piece t ++ scan (column + t.length + 1) 0 [] rest := by
  induction t generalizing column depth piece with
  | nil =>
    obtain rfl : depth = 0 := hclosed
    simp [scan]
  | cons c t ih =>
    have hcolumn : column + (c :: t).length + 1 = column + 1 + t.length + 1 := by
      rw [List.length_cons]
      omega
    rw [List.cons_append, scan, scan, hcolumn]
    split
    · rename_i hseparator
      obtain ⟨rfl, rfl⟩ := hseparator
      have hrest : openAfter 0 t = 0 := hclosed
      rw [ih hrest, List.append_assoc]
    · exact ih hclosed

theorem scan_of_unsplit (hunsplit : Unsplit depth t) :
    scan column depth piece t =
      if openAfter depth t = 0 then ofPiece (t.reverse ++ piece) (column + t.length) else [] := by
  induction t generalizing column depth piece with
  | nil => rfl
  | cons c t ih =>
    have hnot : ¬ (c = ',' ∧ depth = 0) := by
      rintro ⟨rfl, rfl⟩
      exact hunsplit 0 ⟨rfl, rfl⟩
    rw [scan, if_neg hnot, ih hunsplit.tail, List.reverse_cons, List.append_assoc, List.length_cons,
      Nat.add_right_comm, Nat.add_assoc]
    rfl

theorem ofPiece_reverse (t : Text) (column : Nat) :
    ofPiece t.reverse (column + t.length) =
      if Text.trim t = [] then [] else [⟨Text.trim t, column + Text.indent t⟩] := by
  rw [ofPiece, List.reverse_reverse, Nat.add_sub_cancel]

/-- A list with closed brackets and without separators is one entry, unless it is blank. -/
theorem scan_of_closed (hunsplit : Unsplit 0 t) (hclosed : openAfter 0 t = 0) :
    scan column 0 [] t = if Text.trim t = [] then [] else [⟨Text.trim t, column + Text.indent t⟩] := by
  rw [scan_of_unsplit hunsplit, if_pos hclosed, List.append_nil, ofPiece_reverse]

/-- What an entry says does not depend on the column at which the list starts. -/
theorem map_text_scan (column column' depth : Nat) (piece t : Text) :
    (scan column depth piece t).map text = (scan column' depth piece t).map text := by
  have hpiece (piece : Text) (stop stop' : Nat) :
      (ofPiece piece stop).map text = (ofPiece piece stop').map text := by
    unfold ofPiece
    dsimp only
    split <;> rfl
  induction t generalizing column column' depth piece with
  | nil =>
    rw [scan, scan]
    split
    · exact hpiece piece column column'
    · rfl
  | cons c t ih =>
    rw [scan, scan]
    split
    · rw [List.map_append, List.map_append, hpiece piece column column', ih (column + 1) (column' + 1)]
    · exact ih _ _ _ _

/-- The entries of a list stand between its ends. -/
theorem within_of_mem_scan {entry : ParameterEntry} (hentry : entry ∈ scan column 0 [] t) :
    column ≤ entry.start ∧ entry.start + entry.text.length ≤ column + t.length := by
  have hpieces := pieces_scan column 0 [] t
  obtain ⟨hne, start, hstart, hstands⟩ := hpieces.stands _ (List.mem_map_of_mem hentry)
  have hstop := Text.stop_le_of_prefix hne hstands
  simp only [piece, List.reverse_nil, List.nil_append] at hstart hstop
  omega

end Scan

/-- The texts of the entries of a list. -/
def texts (t : Text) : List Text :=
  (split t).map text

theorem texts_append_comma {t : Text} (hclosed : openAfter 0 t = 0) (u : Text) :
    texts (t ++ ',' :: u) = texts t ++ texts u := by
  have hrest : (scan (0 + t.length + 1) 0 [] u).map text = texts u := map_text_scan _ 0 0 [] u
  rw [texts, split, scan_append_comma hclosed, List.map_append, hrest]
  rfl

theorem texts_of_closed {t : Text} (hunsplit : Unsplit 0 t) (hclosed : openAfter 0 t = 0) (hne : Text.trim t ≠ []) :
    texts t = [Text.trim t] := by
  rw [texts, split, scan_of_closed hunsplit hclosed, if_neg hne]
  rfl

/-- Lists with closed brackets that are joined by commas are read one after the other. -/
theorem texts_join {lists : List Text} (hclosed : ∀ t ∈ lists, openAfter 0 t = 0) :
    texts (Text.join "," lists) = lists.flatMap texts := by
  induction lists with
  | nil => rfl
  | cons t lists ih =>
    obtain ⟨ht, hlists⟩ := List.forall_mem_cons.mp hclosed
    cases lists with
    | nil => simp [Text.join]
    | cons u lists =>
      have hjoin : Text.join "," (t :: u :: lists) = t ++ ',' :: Text.join "," (u :: lists) := by
        rw [Text.join, List.intercalate_cons_cons, List.append_assoc]
        rfl
      rw [hjoin, texts_append_comma ht, ih hlists]
      rfl

end ViewMarkup.ParameterEntry
