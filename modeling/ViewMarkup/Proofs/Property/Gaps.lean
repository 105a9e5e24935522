import ViewMarkup.Proofs.Property.Sealed
import ViewMarkup.Proofs.Property.Tokens

namespace ViewMarkup

namespace Text

/-- Every quote and every brace is closed, and no brace is closed that was not opened. -/
inductive Balanced : Text → Prop
  | nil : Balanced []
  | plain {c : Char} {rest : Text} (hquote : c ≠ '"') (happostrophe : c ≠ '\'') (hopen : c ≠ '\x7b')
    (hclose : c ≠ '\x7d') (hrest : Balanced rest) : Balanced (c :: rest)
  | quoted {quote : Char} {inner rest : Text} (hquote : quote = '"' ∨ quote = '\'') (hinner : quote ∉ inner)
    (hrest : Balanced rest) : Balanced (quote :: (inner ++ quote :: rest))
  | braced {inner rest : Text} (hinner : Balanced inner) (hrest : Balanced rest) :
    Balanced ('\x7b' :: (inner ++ '\x7d' :: rest))

/-- The text closes whatever it opens and, besides, as many braces as were open before it. A closing brace when none
is open counts for nothing. -/
inductive Closes : Nat → Text → Prop
  | balanced {t : Text} (ht : Balanced t) : Closes 0 t
  | brace {depth : Nat} {t rest : Text} (ht : Balanced t) (hrest : Closes (depth - 1) rest) :
    Closes depth (t ++ '\x7d' :: rest)

theorem Balanced.append {t u : Text} (ht : Balanced t) (hu : Balanced u) : Balanced (t ++ u) := by
  induction ht with
  | nil => exact hu
  | plain hquote happostrophe hopen hclose _ ih => exact .plain hquote happostrophe hopen hclose ih
  | quoted hquote hinner _ ih =>
    rw [List.cons_append, List.append_assoc, List.cons_append]
    exact .quoted hquote hinner ih
  | braced hinner _ _ ih =>
    rw [List.cons_append, List.append_assoc, List.cons_append]
    exact .braced hinner ih

theorem Closes.append_left {t u : Text} {depth : Nat} (ht : Balanced t) (hu : Closes depth u) :
    Closes depth (t ++ u) := by
  cases hu with
  | balanced hu => exact .balanced (ht.append hu)
  | brace hinner hrest =>
    rw [← List.append_assoc]
    exact .brace (ht.append hinner) hrest

/-- A balanced text leaves the shelter as it was. -/
theorem Balanced.after_eq {t : Text} (ht : Balanced t) (depth : Nat) :
    (Shelter.mk none depth).after t = Shelter.mk none depth := by
  induction ht generalizing depth with
  | nil => rfl
  | plain hquote happostrophe hopen hclose _ ih =>
    rw [Shelter.after_cons, Shelter.step_plain hquote happostrophe hopen hclose, ih]
  | quoted hquote hinner _ ih => rw [Shelter.after_quoted hquote hinner, ih]
  | braced _ _ ihinner ih =>
    have hopen : (Shelter.mk none depth).step '\x7b' = Shelter.mk none (depth + 1) := rfl
    have hclose : (Shelter.mk none (depth + 1)).step '\x7d' = Shelter.mk none depth := rfl
    rw [Shelter.after_cons, hopen, Shelter.after_append, ihinner, Shelter.after_cons, hclose, ih]

theorem Closes.after_eq {t : Text} {depth : Nat} (ht : Closes depth t) :
    (Shelter.mk none depth).after t = Shelter.none := by
  induction ht with
  | balanced ht => exact ht.after_eq 0
  | @brace depth _ _ ht _ ih =>
    have hclose : (Shelter.mk none depth).step '\x7d' = Shelter.mk none (depth - 1) := rfl
    rw [Shelter.after_append, ht.after_eq, Shelter.after_cons, hclose, ih]

end Text

namespace Shelter

open Text (Balanced Closes)

/-- A quote that is closed later is closed by the next one of its kind. -/
theorem exists_of_after_quote {quote : Char} {depth : Nat} {t : Text}
    (hafter : (mk (some quote) depth).after t = none) : ∃ inner rest, t = inner ++ quote :: rest ∧ quote ∉ inner := by
  by_cases hmem : quote ∈ t
  · exact List.eq_append_cons_of_mem hmem
  · rw [(covers_quoted hmem depth).2] at hafter
    cases hafter

/-- If nothing is open behind a text, it closes what is open in front of it. -/
theorem closes_of_after {t : Text} {depth : Nat} (hafter : (mk .none depth).after t = none) : Closes depth t := by
  -- a quote or a pair of braces is passed at once, so the induction is on the length
  induction hlength : t.length using Nat.strong_induction_on generalizing t depth with
  | _ length ih =>
    subst hlength
    cases t with
    | nil =>
      cases hafter
      exact .balanced .nil
    | cons c rest =>
      by_cases hquote : c = '"' ∨ c = '\''
      · have hstep : (mk .none depth).step c = mk (some c) depth := if_pos hquote
        have hbehind := hafter
        rw [after_cons, hstep] at hbehind
        obtain ⟨inner, behind, rfl, hinner⟩ := exists_of_after_quote hbehind
        rw [after_quoted hquote hinner] at hafter
        have hcloses := ih behind.length (by simp; omega) hafter rfl
        have hspan : Balanced (c :: (inner ++ [c])) := .quoted hquote hinner .nil
        simpa using hcloses.append_left hspan
      obtain ⟨hdouble, hsingle⟩ := not_or.mp hquote
      by_cases hopen : c = '\x7b'
      · subst hopen
        have hcloses : Closes (depth + 1) rest := ih rest.length (by simp) hafter rfl
        cases hcloses with
        | @brace _ inner behind hinner hbehind =>
          have hspan : Balanced ('\x7b' :: (inner ++ ['\x7d'])) := .braced hinner .nil
          have hbehind : Closes depth behind := hbehind
          simpa using hbehind.append_left hspan
      by_cases hclose : c = '\x7d'
      · subst hclose
        exact .brace .nil (ih rest.length (by simp) hafter rfl)
      · rw [after_cons, step_plain hdouble hsingle hopen hclose] at hafter
        exact (ih rest.length (by simp) hafter rfl).append_left (.plain hdouble hsingle hopen hclose .nil)

/-- Nothing is open behind a text exactly if it closes whatever it opens. -/
theorem after_none_eq_none_iff {t : Text} : none.after t = none ↔ Closes 0 t :=
  ⟨closes_of_after, Closes.after_eq⟩

theorem isNone_iff {shelter : Shelter} : shelter.isNone ↔ shelter = none := by
  obtain ⟨quote, depth⟩ := shelter
  simp [isNone, none]

/-- A blank opens and closes nothing. -/
theorem step_blank {c : Char} (hblank : isBlank c) : none.step c = none := by
  have hne {d : Char} (hd : isBlank d = false) : c ≠ d := by
    rintro rfl
    rw [hblank] at hd
    cases hd
  exact step_plain (hne rfl) (hne rfl) (hne rfl) (hne rfl) 0

theorem Covers.isBlank_head {t : Text} (hcovers : none.Covers t) : ∀ c ∈ t.head?, isBlank c = false := by
  cases t with
  | nil => simp
  | cons c t =>
    rintro _ ⟨⟩
    simpa [isNone, none] using hcovers.1

end Shelter

namespace PropertyToken

/-- The token stands over a column. -/
def Holds (token : PropertyToken) (column : Int) : Prop :=
  token.start ≤ column ∧ column < token.stop

/-- How far a scan has come: nothing is open between tokens, and a token that has begun ends here, with the quotes
and braces open that it has opened itself. -/
inductive Reached (column : Int) : Option PropertyToken → Shelter → Prop
  | between : Reached column none Shelter.none
  | begun {token : PropertyToken} (hne : token.text ≠ []) (hstop : token.stop = column)
    (hcovers : Shelter.none.Covers token.text.reverse) :
    Reached column (some token) (Shelter.none.after token.text.reverse)

variable {column : Int} {open? : Option PropertyToken} {shelter : Shelter}

theorem Reached.open_stop (hreached : Reached column open? shelter) :
    ∀ token ∈ open?, token.text ≠ [] ∧ token.stop = column := by
  cases hreached with
  | between => simp
  | begun hne hstop _ =>
    rintro _ ⟨⟩
    exact ⟨hne, hstop⟩

/-- A character that does not separate tokens is one more of the token, or the first of a new one. -/
theorem Reached.step {c : Char} (hreached : Reached column open? shelter)
    (hcovered : (isBlank c && shelter.isNone) = false) :
    Reached (column + 1) (some ⟨c :: (open?.getD ⟨[], column⟩).text, (open?.getD ⟨[], column⟩).start⟩)
      (shelter.step c) := by
  cases hreached with
  | between =>
    have hcovers : Shelter.none.Covers [c] := ⟨hcovered, trivial⟩
    exact .begun (List.cons_ne_nil _ _) (by simp [stop]) hcovers
  | @begun token hne hstop hcovers =>
    have hafter : (Shelter.none.after token.text.reverse).step c = Shelter.none.after (c :: token.text).reverse := by
      rw [List.reverse_cons, Shelter.after_append]
      rfl
    rw [hafter]
    refine .begun (List.cons_ne_nil _ _) ?_ ?_
    · simp only [stop, Option.getD_some, List.length_cons] at hstop ⊢
      push_cast
      omega
    · rw [Option.getD_some, List.reverse_cons]
      exact hcovers.append ⟨hcovered, trivial⟩

theorem Reached.covers_begun (hreached : Reached column open? shelter) :
    ∀ token ∈ open?.toList.map fun token => { token with text := token.text.reverse },
      Shelter.none.Covers token.text := by
  cases hreached with
  | between => simp
  | begun _ _ hcovers => simpa using hcovers

/-- The blanks of every token are inside the quotes and braces of the token. -/
theorem Reached.covers_of_mem_scan {t : Text} (hreached : Reached column open? shelter) :
    ∀ token ∈ scan column open? shelter t, Shelter.none.Covers token.text := by
  induction t generalizing column open? shelter with
  | nil => exact hreached.covers_begun
  | cons c rest ih =>
    rw [scan]
    split
    · rename_i hblank
      obtain rfl := Shelter.isNone_iff.mp (Bool.and_eq_true_iff.mp hblank).2
      exact List.forall_mem_append.mpr ⟨hreached.covers_begun, ih .between⟩
    · rename_i hcovered
      exact ih (hreached.step (by simpa using hcovered))

/-- A token that has begun is the first, and all that was read is its start. -/
theorem exists_scan_some (column : Int) (token : PropertyToken) (shelter : Shelter) (t : Text) :
    ∃ tail more, scan column (some token) shelter t = ⟨token.text.reverse ++ tail, token.start⟩ :: more := by
  induction t generalizing column token shelter with
  | nil => exact ⟨[], [], by simp [scan]⟩
  | cons c rest ih =>
    rw [scan]
    split
    · exact ⟨[], scan (column + 1) none shelter rest, by simp⟩
    · obtain ⟨tail, more, hscan⟩ := ih (column + 1) ⟨c :: token.text, token.start⟩ (shelter.step c)
      exact ⟨c :: tail, more, hscan.trans (by simp)⟩

/-- A token that has begun stands over the last column that was read. -/
theorem exists_holds_scan_some {token : PropertyToken} (hne : token.text ≠ []) (hstop : token.stop = column + 1)
    (shelter : Shelter) (t : Text) :
    ∃ found ∈ scan (column + 1) (some token) shelter t, found.Holds column := by
  obtain ⟨tail, more, hscan⟩ := exists_scan_some (column + 1) token shelter t
  have hlength := List.length_pos_iff.mpr hne
  refine ⟨_, hscan ▸ List.mem_cons_self, ?_⟩
  simp only [Holds, stop, List.length_append, List.length_reverse] at hstop ⊢
  push_cast
  omega

/-- A token that has begun stops in front of what is still to be read. -/
theorem Reached.not_holds_begun (hreached : Reached column open? shelter) (i : Nat) :
    ∀ token ∈ open?.toList.map fun token => { token with text := token.text.reverse }, ¬ token.Holds (column + i) := by
  intro token htoken
  obtain ⟨begun, hbegun, rfl⟩ := List.mem_map.mp htoken
  have hstop := (hreached.open_stop begun (Option.mem_toList.mp hbegun)).2
  simp only [Holds, stop, List.length_reverse] at hstop ⊢
  omega

/-- Tokens that begin later start no earlier. -/
theorem column_le_of_mem_scan {t : Text} {token : PropertyToken} (htoken : token ∈ scan column none Shelter.none t) :
    column ≤ token.start := by
  obtain ⟨-, start, hstart, -⟩ := (pieces_tokens column t).stands _ (List.mem_map_of_mem htoken)
  simp only [piece] at hstart
  omega

/-- A character is outside of all tokens exactly if it is a blank with nothing open in front of it. -/
theorem Reached.outside_iff {t : Text} (hreached : Reached column open? shelter) {i : Nat} {c : Char}
    (hc : t[i]? = some c) :
    (∀ token ∈ scan column open? shelter t, ¬ token.Holds (column + i)) ↔
      isBlank c ∧ shelter.after (t.take i) = Shelter.none := by
  -- the first character decides if it is the one asked for, and otherwise the scan has come one column further
  induction t generalizing column open? shelter i with
  | nil => cases hc
  | cons d rest ih =>
    have hcolumn (i : Nat) : column + ((i + 1 : Nat) : Int) = column + 1 + i := by
      push_cast
      omega
    rw [scan]
    split
    · rename_i hseparates
      obtain ⟨hblank, hnone⟩ := Bool.and_eq_true_iff.mp hseparates
      obtain rfl := Shelter.isNone_iff.mp hnone
      rw [List.forall_mem_append, and_iff_right (hreached.not_holds_begun i)]
      cases i with
      | zero =>
        obtain rfl : d = c := Option.some.inj hc
        refine iff_of_true (fun token htoken => ?_) ⟨hblank, rfl⟩
        have hstart := column_le_of_mem_scan htoken
        simp only [Holds]
        omega
      | succ i =>
        rw [List.take_succ_cons, Shelter.after_cons, Shelter.step_blank hblank, hcolumn]
        exact ih .between hc
    · rename_i hcovered
      rw [Bool.not_eq_true] at hcovered
      have hnext := hreached.step hcovered
      cases i with
      | zero =>
        obtain rfl : d = c := Option.some.inj hc
        obtain ⟨hne, hstop⟩ := hnext.open_stop _ rfl
        obtain ⟨found, hfound, hholds⟩ := exists_holds_scan_some hne hstop (shelter.step d) rest
        refine iff_of_false (fun houtside => houtside found hfound (by simpa using hholds)) ?_
        rintro ⟨hblank, rfl⟩
        rw [hblank] at hcovered
        cases hcovered
      | succ i =>
        rw [hcolumn]
        exact ih hnext hc

/-- A token with nothing open at its end is sealed. -/
theorem sealed_of_mem_tokens {t : Text} {token : PropertyToken} (htoken : token ∈ tokens column t)
    (hafter : Shelter.none.after token.text = Shelter.none) : token.text ≠ [] ∧ Text.Sealed token.text := by
  have hpiece := (pieces_tokens column t).stands _ (List.mem_map_of_mem htoken)
  exact ⟨hpiece.1, Reached.between.covers_of_mem_scan token htoken, hafter⟩

/-- Sealed texts with blanks between them are tokens one by one. -/
theorem tokens_spaced {spaced : List SpacedToken} {trail : Text}
    (hblank : ∀ token ∈ spaced, ∀ c ∈ token.gap, isBlank c) (hgaps : ∀ token ∈ spaced.tail, token.gap ≠ [])
    (hsealed : ∀ token ∈ spaced, token.text ≠ [] ∧ Text.Sealed token.text) (htrail : ∀ c ∈ trail, isBlank c)
    (column : Int) :
    tokens column (spaced.flatMap SpacedToken.written ++ trail) = SpacedToken.place column spaced := by
  cases spaced with
  | nil =>
    have hscan := scan_blanks htrail column []
    rw [List.append_nil] at hscan
    exact hscan
  | cons first more =>
    obtain ⟨hlead, hblank⟩ := List.forall_mem_cons.mp hblank
    obtain ⟨⟨hne, hfirst⟩, hsealed⟩ := List.forall_mem_cons.mp hsealed
    have hmore : ∀ token ∈ more, token.gap ≠ [] ∧ ∀ c ∈ token.gap, isBlank c := fun token htoken =>
      ⟨hgaps token htoken, hblank token htoken⟩
    rw [tokens, List.flatMap_cons, SpacedToken.written, List.append_assoc, List.append_assoc, scan_blanks hlead,
      scan_sealed hfirst hne, SpacedToken.scan_spaced hmore hsealed htrail, List.reverse_reverse, SpacedToken.place]

/-- Tokens are apart and stand where their columns say, and they start with a character that is not blank. A
character is outside of all tokens exactly if it is a blank behind a text that closes whatever it opens. Tokens with
nothing open at their ends are read again wherever blanks are put between them. -/
theorem tokens_separated_by_unsheltered_blanks (column : Int) (t : Text) :
    (∀ token ∈ tokens column t, ∃ start stop : Nat, token.start = column + start ∧ token.stop = column + stop ∧
        start < stop ∧ stop ≤ t.length ∧ token.text = Text.slice start stop t ∧
        ∃ c ∈ token.text.head?, isBlank c = false) ∧
      (tokens column t).Pairwise (fun token next => token.stop < next.start) ∧
      (∀ (i : Nat) (c : Char), t[i]? = some c →
        ((∀ token ∈ tokens column t, ¬ token.Holds (column + i)) ↔
          isBlank c ∧ Shelter.none.after (t.take i) = Shelter.none)) ∧
      (∀ lead : Text, Shelter.none.after lead = Shelter.none ↔ Text.Closes 0 lead) ∧
      ∀ (spaced : List SpacedToken) (trail : Text),
        (∀ token ∈ spaced, Shelter.none.after token.text = Shelter.none ∧
          ∃ (base : Int) (source : Text), ∃ found ∈ tokens base source, found.text = token.text) →
        (∀ token ∈ spaced, ∀ c ∈ token.gap, isBlank c) → (∀ token ∈ spaced.tail, token.gap ≠ []) →
        (∀ c ∈ trail, isBlank c) →
        tokens column (spaced.flatMap SpacedToken.written ++ trail) = SpacedToken.place column spaced ∧
          (SpacedToken.place column spaced).map text = spaced.map SpacedToken.text := by
  refine ⟨fun token htoken => ?_, List.pairwise_map.mp (pieces_tokens column t).apart,
    fun i c hc => Reached.between.outside_iff hc, fun lead => Shelter.after_none_eq_none_iff, ?_⟩
  · obtain ⟨hne, start, hstart, hstands⟩ := (pieces_tokens column t).stands _ (List.mem_map_of_mem htoken)
    have hstop := Text.stop_le_of_prefix hne hstands
    have hlength := List.length_pos_iff.mpr hne
    have hcovers := Reached.between.covers_of_mem_scan token htoken
    obtain ⟨c, rest, htext⟩ := List.exists_cons_of_ne_nil hne
    simp only [piece] at hne hstart hstop hlength htext hstands
    refine ⟨start, start + token.text.length, hstart, ?_, by omega, hstop, (Text.slice_of_prefix hstands).symm, c, ?_, ?_⟩
    · simp only [stop, hstart]
      push_cast
      omega
    · rw [htext]
      rfl
    · exact hcovers.isBlank_head c (by rw [htext]; rfl)
  · intro spaced trail htokens hblank hgaps htrail
    have hsealed : ∀ token ∈ spaced, token.text ≠ [] ∧ Text.Sealed token.text := by
      intro token htoken
      obtain ⟨hafter, base, source, found, hfound, htext⟩ := htokens token htoken
      rw [← htext] at hafter ⊢
      exact sealed_of_mem_tokens hfound hafter
    exact ⟨tokens_spaced hblank hgaps hsealed htrail column, SpacedToken.map_text_place column spaced⟩

/-- A closing brace in quotes, one that closes nothing, and a quote that is not closed. -/
def unclosedQuote : Text := "a=\x7bx '\x7d y'\x7d \x7d 'b c' \"d e"

theorem tokens_separated_by_unsheltered_blanks_unclosed :
    tokens 4 unclosedQuote =
        [⟨"a=\x7bx '\x7d y'\x7d", 4⟩, ⟨"\x7d", 16⟩, ⟨"'b c'", 18⟩, ⟨"\"d e", 24⟩] ∧
      unclosedQuote[7]? = some ' ' ∧ unclosedQuote[13]? = some ' ' ∧
      ¬ (∀ token ∈ tokens 4 unclosedQuote, ¬ token.Holds (4 + (7 : Nat))) ∧
      (∀ token ∈ tokens 4 unclosedQuote, ¬ token.Holds (4 + (13 : Nat))) ∧
      tokens 4 " 'b c'\t\n a=\x7bx '\x7d y'\x7d " = [⟨"'b c'", 5⟩, ⟨"a=\x7bx '\x7d y'\x7d", 13⟩] := by
  have htokens : tokens 4 unclosedQuote =
      [⟨"a=\x7bx '\x7d y'\x7d", 4⟩, ⟨"\x7d", 16⟩, ⟨"'b c'", 18⟩, ⟨"\"d e", 24⟩] := by
    decide +kernel
  obtain ⟨-, -, houtside, -, hspaced⟩ := tokens_separated_by_unsheltered_blanks 4 unclosedQuote
  have hbrace : unclosedQuote[7]? = some ' ' := by decide +kernel
  have hgap : unclosedQuote[13]? = some ' ' := by decide +kernel
  refine ⟨htokens, hbrace, hgap, ?_, (houtside 13 ' ' hgap).mpr (by decide +kernel), ?_⟩
  · rw [houtside 7 ' ' hbrace]
    decide +kernel
  · have hagain := hspaced [⟨" ", "'b c'"⟩, ⟨"\t\n ", "a=\x7bx '\x7d y'\x7d"⟩] " " ?_ ?_ ?_ ?_
    · exact hagain.1
    · refine List.forall_mem_cons.mpr ⟨⟨by decide +kernel, 4, unclosedQuote, ⟨"'b c'", 18⟩, ?_, rfl⟩,
        List.forall_mem_singleton.mpr ⟨by decide +kernel, 4, unclosedQuote, ⟨"a=\x7bx '\x7d y'\x7d", 4⟩, ?_, rfl⟩⟩
      · rw [htokens]
        exact .tail _ (.tail _ (.head _))
      · rw [htokens]
        exact .head _
    · refine List.forall_mem_cons.mpr ⟨?_, List.forall_mem_singleton.mpr ?_⟩
      · exact List.all_eq_true.mp (by decide +kernel)
      · exact List.all_eq_true.mp (by decide +kernel)
    · exact List.forall_mem_singleton.mpr (by decide)
    · exact List.all_eq_true.mp (by decide +kernel)

end PropertyToken

end ViewMarkup
