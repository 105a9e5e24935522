import ViewMarkup.Property.Token

namespace ViewMarkup

namespace Shelter

/-- The shelter after a text. -/
def after (shelter : Shelter) (t : Text) : Shelter :=
  t.foldl step shelter

@[simp] theorem after_nil (shelter : Shelter) : shelter.after [] = shelter := rfl

@[simp] theorem after_cons (shelter : Shelter) (c : Char) (t : Text) :
    shelter.after (c :: t) = (shelter.step c).after t := rfl

theorem after_append (shelter : Shelter) (t u : Text) : shelter.after (t ++ u) = (shelter.after t).after u :=
  List.foldl_append

/-- Every blank of the text is sheltered. -/
def Covers : Shelter → Text → Prop
  | _, [] => True
  | shelter, c :: rest => (isBlank c && shelter.isNone) = false ∧ (shelter.step c).Covers rest

theorem Covers.append {shelter : Shelter} {t u : Text} (ht : shelter.Covers t) (hu : (shelter.after t).Covers u) :
    shelter.Covers (t ++ u) := by
  induction t generalizing shelter with
  | nil => exact hu
  | cons c t ih => exact ⟨ht.1, ih ht.2 hu⟩

/-- Between quotes the shelter stays as it is. -/
theorem covers_quoted {quote : Char} {t : Text} (hquote : quote ∉ t) (depth : Nat) :
    (mk (some quote) depth).Covers t ∧ (mk (some quote) depth).after t = mk (some quote) depth := by
  induction t with
  | nil => exact ⟨trivial, rfl⟩
  | cons c t ih =>
    simp only [List.mem_cons, not_or] at hquote
    obtain ⟨hc, ht⟩ := hquote
    have hstep : (mk (some quote) depth).step c = mk (some quote) depth := if_neg (Ne.symm hc)
    rw [Covers, after_cons, hstep]
    exact ⟨⟨by simp [isNone], (ih ht).1⟩, (ih ht).2⟩

/-- A character that is neither a quote nor a brace opens and closes nothing. -/
theorem step_plain {c : Char} (hquote : c ≠ '"') (happostrophe : c ≠ '\'') (hopen : c ≠ '\x7b') (hclose : c ≠ '\x7d')
    (depth : Nat) : (mk .none depth).step c = mk .none depth := by
  simp [step, hquote, happostrophe, hopen, hclose]

/-- A text in quotes leaves the shelter as it was. -/
theorem after_quoted {quote : Char} {inner : Text} (hquote : quote = '"' ∨ quote = '\'') (hinner : quote ∉ inner)
    (depth : Nat) (rest : Text) :
    (mk .none depth).after (quote :: (inner ++ quote :: rest)) = (mk .none depth).after rest := by
  have hstep : (mk .none depth).step quote = mk (some quote) depth := if_pos hquote
  have hback : (mk (some quote) depth).step quote = mk .none depth := if_pos rfl
  rw [after_cons, hstep, after_append, (covers_quoted hinner depth).2, after_cons, hback]

/-- Inside braces everything is sheltered, as long as none of them is closed. -/
theorem covers_of_depth {shelter : Shelter} {t : Text} (hopen : '\x7b' ∉ t) (hclose : '\x7d' ∉ t)
    (hdepth : 0 < shelter.depth) : shelter.Covers t := by
  induction t generalizing shelter with
  | nil => trivial
  | cons c t ih =>
    simp only [List.mem_cons, not_or] at hopen hclose
    have hstep : (shelter.step c).depth = shelter.depth := by
      unfold step
      split
      · split <;> rfl
      · rw [if_neg (Ne.symm hopen.1), if_neg (Ne.symm hclose.1)]
        split <;> rfl
    refine ⟨?_, ih hopen.2 hclose.2 (hstep ▸ hdepth)⟩
    have hnot : shelter.isNone = false := by simp [isNone, Nat.ne_of_gt hdepth]
    rw [hnot, Bool.and_false]

end Shelter

namespace Text

/-- Every quote is closed by the next one of its kind. -/
inductive QuotesClosed : Text → Prop
  | nil : QuotesClosed []
  | plain {c : Char} {rest : Text} (hquote : c ≠ '"') (happostrophe : c ≠ '\'') (hrest : QuotesClosed rest) :
    QuotesClosed (c :: rest)
  | quoted {quote : Char} {inner rest : Text} (hquote : quote = '"' ∨ quote = '\'') (hinner : quote ∉ inner)
    (hrest : QuotesClosed rest) : QuotesClosed (quote :: (inner ++ quote :: rest))

/-- Closed quotes leave the shelter as it is. -/
theorem QuotesClosed.after_eq {t : Text} (hclosed : QuotesClosed t) (hopen : '\x7b' ∉ t) (hclose : '\x7d' ∉ t)
    (depth : Nat) : (Shelter.mk none depth).after t = Shelter.mk none depth := by
  induction hclosed with
  | nil => rfl
  | @plain c rest hquote happostrophe hrest ih =>
    simp only [List.mem_cons, not_or] at hopen hclose
    rw [Shelter.after_cons, Shelter.step_plain hquote happostrophe (Ne.symm hopen.1) (Ne.symm hclose.1)]
    exact ih hopen.2 hclose.2
  | @quoted quote inner rest hquote hinner hrest ih =>
    rw [Shelter.after_quoted hquote hinner]
    simp only [List.mem_cons, List.mem_append, not_or] at hopen hclose
    exact ih hopen.2.2.2 hclose.2.2.2

/-- All blanks are inside quotes or braces, and these are closed at the end. -/
structure Sealed (t : Text) : Prop where
  covers : Shelter.none.Covers t
  after_eq : Shelter.none.after t = Shelter.none

theorem Sealed.append {t u : Text} (ht : Sealed t) (hu : Sealed u) : Sealed (t ++ u) := by
  constructor
  · refine ht.covers.append ?_
    rw [ht.after_eq]
    exact hu.covers
  · rw [Shelter.after_append, ht.after_eq, hu.after_eq]

/-- A character that neither separates tokens nor opens or closes a shelter. -/
def isPlain (c : Char) : Bool :=
  !(isBlank c || ['"', '\'', '\x7b', '\x7d'].contains c)

theorem sealed_of_plain {t : Text} (hplain : ∀ c ∈ t, isPlain c) : Sealed t := by
  induction t with
  | nil => exact ⟨trivial, rfl⟩
  | cons c t ih =>
    obtain ⟨hc, ht⟩ := List.forall_mem_cons.mp hplain
    simp only [isPlain, List.contains_eq_mem, List.mem_cons, List.not_mem_nil, or_false, Bool.not_eq_true',
      Bool.or_eq_false_iff, decide_eq_false_iff_not, not_or] at hc
    obtain ⟨hblank, hquote, happostrophe, hopen, hclose⟩ := hc
    have hstep : Shelter.none.step c = Shelter.none := Shelter.step_plain hquote happostrophe hopen hclose 0
    obtain ⟨hcovers, hafter⟩ := ih ht
    constructor
    · rw [Shelter.Covers, hstep, hblank]
      exact ⟨rfl, hcovers⟩
    · rw [Shelter.after_cons, hstep, hafter]

theorem sealed_quoted {t : Text} (hquote : '"' ∉ t) : Sealed ('"' :: (t ++ ['"'])) := by
  have hstep : Shelter.none.step '"' = Shelter.mk (some '"') 0 := rfl
  obtain ⟨hcovers, hafter⟩ := Shelter.covers_quoted hquote 0
  constructor
  · refine ⟨rfl, hcovers.append ?_⟩
    rw [hafter]
    exact ⟨rfl, trivial⟩
  · rw [Shelter.after_cons, hstep, Shelter.after_append, hafter]
    rfl

theorem sealed_braced {t : Text} (hopen : '\x7b' ∉ t) (hclose : '\x7d' ∉ t) (hquotes : QuotesClosed t) :
    Sealed ('\x7b' :: (t ++ ['\x7d'])) := by
  have hstep : Shelter.none.step '\x7b' = Shelter.mk none 1 := rfl
  have hafter := hquotes.after_eq hopen hclose 1
  constructor
  · refine ⟨rfl, (Shelter.covers_of_depth hopen hclose (by decide)).append ?_⟩
    rw [hstep, hafter]
    exact ⟨rfl, trivial⟩
  · rw [Shelter.after_cons, hstep, Shelter.after_append, hafter]
    rfl

end Text

namespace PropertyToken

theorem add_length_cons (column : Int) (c : Char) (t : Text) :
    column + ((c :: t).length : Int) = column + 1 + t.length := by
  rw [List.length_cons]
  omega

/-- A token that has begun goes on as long as blanks are sheltered. -/
theorem scan_covered {shelter : Shelter} {t : Text} (hcovers : shelter.Covers t) (column : Int)
    (token : PropertyToken) (rest : Text) :
    scan column (some token) shelter (t ++ rest) =
      scan (column + t.length) (some ⟨t.reverse ++ token.text, token.start⟩) (shelter.after t) rest := by
  induction t generalizing shelter column token with
  | nil => simp
  | cons c t ih =>
    rw [List.cons_append, scan, if_neg (by simp [hcovers.1]), ih hcovers.2, add_length_cons, List.reverse_cons,
      List.append_assoc]
    rfl

/-- A sealed text begins a token and is all of it so far. -/
theorem scan_sealed {t : Text} (hsealed : Text.Sealed t) (hne : t ≠ []) (column : Int) (rest : Text) :
    scan column none Shelter.none (t ++ rest) =
      scan (column + t.length) (some ⟨t.reverse, column⟩) Shelter.none rest := by
  have hbegun : scan column none Shelter.none (t ++ rest) =
      scan column (some ⟨[], column⟩) Shelter.none (t ++ rest) := by
    cases t with
    | nil => exact absurd rfl hne
    | cons c t =>
      have hcovered : ¬ (isBlank c && Shelter.none.isNone) = true := by simp [hsealed.covers.1]
      rw [List.cons_append, scan, scan, if_neg hcovered, if_neg hcovered]
      rfl
  rw [hbegun, scan_covered hsealed.covers, hsealed.after_eq, List.append_nil]

/-- Blanks outside of any token are passed over. -/
theorem scan_blanks {gap : Text} (hblank : ∀ c ∈ gap, isBlank c) (column : Int) (rest : Text) :
    scan column none Shelter.none (gap ++ rest) = scan (column + gap.length) none Shelter.none rest := by
  induction gap generalizing column with
  | nil => simp
  | cons c gap ih =>
    obtain ⟨hc, hgap⟩ := List.forall_mem_cons.mp hblank
    rw [List.cons_append, scan, if_pos (by simp [hc, Shelter.isNone, Shelter.none]), ih hgap, add_length_cons]
    rfl

/-- A blank ends the token that has begun. -/
theorem scan_gap {gap : Text} (hne : gap ≠ []) (hblank : ∀ c ∈ gap, isBlank c) (column : Int)
    (token : PropertyToken) (rest : Text) :
    scan column (some token) Shelter.none (gap ++ rest) =
      ⟨token.text.reverse, token.start⟩ :: scan (column + gap.length) none Shelter.none rest := by
  cases gap with
  | nil => exact absurd rfl hne
  | cons c gap =>
    obtain ⟨hc, hgap⟩ := List.forall_mem_cons.mp hblank
    rw [List.cons_append, scan, if_pos (by simp [hc, Shelter.isNone, Shelter.none]), scan_blanks hgap, add_length_cons]
    rfl

end PropertyToken

/-- The text of a token and the blanks in front of it. -/
structure SpacedToken where
  gap : Text
  text : Text
  deriving DecidableEq, Repr

namespace SpacedToken

def written (spaced : SpacedToken) : Text :=
  spaced.gap ++ spaced.text

/-- The tokens at their columns, if the first gap starts at the given column. -/
def place (column : Int) : List SpacedToken → List PropertyToken
  | [] => []
  | spaced :: more =>
    ⟨spaced.text, column + spaced.gap.length⟩ :: place (column + spaced.gap.length + spaced.text.length) more

theorem map_text_place (column : Int) (tokens : List SpacedToken) :
    (place column tokens).map PropertyToken.text = tokens.map text := by
  induction tokens generalizing column with
  | nil => rfl
  | cons spaced more ih => rw [place, List.map_cons, List.map_cons, ih]

/-- Behind a token that has begun, sealed texts are tokens one by one if a blank is in front of each. -/
theorem scan_spaced {tokens : List SpacedToken} {trail : Text}
    (hgaps : ∀ spaced ∈ tokens, spaced.gap ≠ [] ∧ ∀ c ∈ spaced.gap, isBlank c)
    (hsealed : ∀ spaced ∈ tokens, spaced.text ≠ [] ∧ Text.Sealed spaced.text) (htrail : ∀ c ∈ trail, isBlank c)
    (column : Int) (token : PropertyToken) :
    PropertyToken.scan column (some token) Shelter.none (tokens.flatMap written ++ trail) =
      ⟨token.text.reverse, token.start⟩ :: place column tokens := by
  induction tokens generalizing column token with
  | nil =>
    cases trail with
    | nil => rfl
    | cons c trail =>
      have hscan := PropertyToken.scan_gap (List.cons_ne_nil c trail) htrail column token []
      rw [List.append_nil] at hscan
      exact hscan
  | cons spaced more ih =>
    obtain ⟨⟨hne, hblank⟩, hgaps⟩ := List.forall_mem_cons.mp hgaps
    obtain ⟨⟨htext, hspaced⟩, hsealed⟩ := List.forall_mem_cons.mp hsealed
    rw [List.flatMap_cons, written, List.append_assoc, List.append_assoc, PropertyToken.scan_gap hne hblank,
      PropertyToken.scan_sealed hspaced htext, ih hgaps hsealed, List.reverse_reverse, place]

end SpacedToken

end ViewMarkup
