import ViewMarkup.Document.Basic
import ViewMarkup.Proofs.Text.Lines

namespace ViewMarkup

namespace Text

/-- Carriage returns at the end go whatever stands in front of them. -/
theorem dropReturns_append {returns : Text} (hreturns : ∀ c ∈ returns, c = '\r') (t : Text) :
    dropReturns (t ++ returns) = dropReturns t := by
  have hall : ∀ c ∈ returns.reverse, (c == '\r') = true := by
    intro c hc
    rw [hreturns c (List.mem_reverse.mp hc)]
    rfl
  rw [dropReturns, List.reverse_append, List.dropWhile_append_of_pos hall, dropReturns]

/-- A text is what is left of it and the carriage returns that are dropped. -/
theorem exists_returns (t : Text) : ∃ returns, (∀ c ∈ returns, c = '\r') ∧ t = dropReturns t ++ returns := by
  refine ⟨t.rtakeWhile (· == '\r'), fun c hc => ?_, List.rdropWhile_append_rtakeWhile.symm⟩
  simpa using List.mem_rtakeWhile_imp hc

theorem dropReturns_cons_dropReturns (c : Char) (t : Text) :
    dropReturns (c :: dropReturns t) = dropReturns (c :: t) := by
  obtain ⟨returns, hreturns, ht⟩ := exists_returns t
  nth_rewrite 2 [ht]
  rw [← List.cons_append, dropReturns_append hreturns]

theorem dropReturns_dropReturns (t : Text) : dropReturns (dropReturns t) = dropReturns t :=
  List.rdropWhile_idempotent _ t

/-- One more character in front of a text is a line end, or it goes to the first line. -/
theorem map_dropReturns_split_cons (c : Char) (t : Text) :
    (split '\n' (c :: t)).map dropReturns =
      if c = '\n' then [] :: (split '\n' t).map dropReturns
      else ((split '\n' t).map dropReturns).modifyHead fun line => dropReturns (c :: line) := by
  rw [split]
  split
  · rfl
  · obtain ⟨piece, pieces, hpieces⟩ := List.exists_cons_of_ne_nil (split_ne_nil '\n' t)
    simp [hpieces, dropReturns_cons_dropReturns]

/-- A carriage return in front of a line feed is one at the end of a line. -/
theorem map_dropReturns_split_pair (t : Text) :
    (split '\n' ('\r' :: '\n' :: t)).map dropReturns = (split '\n' ('\n' :: t)).map dropReturns := by
  rw [map_dropReturns_split_cons '\r', map_dropReturns_split_cons '\n']
  rfl

/-- The pairs need not be folded before the text is split. -/
theorem lines_eq_split (t : Text) : lines t = (split '\n' t).map dropReturns := by
  unfold lines
  fun_induction foldPairs t with
  | case1 => rfl
  | case2 rest ih =>
    rw [map_dropReturns_split_pair, map_dropReturns_split_cons, map_dropReturns_split_cons '\n', ih]
  | case3 c rest _ ih => rw [map_dropReturns_split_cons, map_dropReturns_split_cons c, ih]

theorem dropReturns_of_mem_lines {t line : Text} (hline : line ∈ lines t) : dropReturns line = line := by
  obtain ⟨piece, _, rfl⟩ := List.mem_map.mp hline
  exact dropReturns_dropReturns piece

theorem getLast?_ne_of_mem_lines {t line : Text} (hline : line ∈ lines t) : line.getLast? ≠ some '\r' := by
  have hdrop : line.rdropWhile (· == '\r') = line := dropReturns_of_mem_lines hline
  intro hlast
  have hne : line ≠ [] := by
    rintro rfl
    cases hlast
  rw [List.getLast?_eq_some_getLast hne] at hlast
  exact List.rdropWhile_eq_self_iff.mp hdrop hne (beq_iff_eq.mpr (Option.some.inj hlast))

/-- Texts of one line each are the lines of what they are joined to, also with carriage returns in front of
the line feeds. -/
theorem lines_join {returns : Text} (hreturns : ∀ c ∈ returns, c = '\r') {pieces : List Text} (hne : pieces ≠ [])
    (hfeeds : ∀ piece ∈ pieces, '\n' ∉ piece) :
    lines (join (returns ++ ['\n']) pieces) = pieces.map dropReturns := by
  have hreturn : '\n' ∉ returns := fun hmem => absurd (hreturns _ hmem) (by decide)
  rw [lines_eq_split]
  induction pieces with
  | nil => exact absurd rfl hne
  | cons piece pieces ih =>
    obtain ⟨hpiece, hrest⟩ := List.forall_mem_cons.mp hfeeds
    cases pieces with
    | nil => rw [join, List.intercalate_singleton, split_of_not_mem hpiece]
    | cons next pieces =>
      have hjoin : join (returns ++ ['\n']) (piece :: next :: pieces) =
          (piece ++ returns) ++ '\n' :: join (returns ++ ['\n']) (next :: pieces) := by
        rw [join, List.intercalate_cons_cons]
        simp [join]
      have hfirst : '\n' ∉ piece ++ returns := by simp [hpiece, hreturn]
      rw [hjoin, split_append hfirst, List.map_cons, ih (List.cons_ne_nil _ _) hrest, dropReturns_append hreturns]
      rfl

theorem lines_join_lines {returns : Text} (hreturns : ∀ c ∈ returns, c = '\r') (t : Text) :
    lines (join (returns ++ ['\n']) (lines t)) = lines t := by
  have hne : lines t ≠ [] := by simpa [lines] using split_ne_nil '\n' (foldPairs t)
  rw [lines_join hreturns hne fun _ => newline_not_mem_lines]
  exact (List.map_congr_left fun _ => dropReturns_of_mem_lines).trans (List.map_id _)

/-- The text with a carriage return put in front of every line feed that stands at a chosen place. -/
def returnFeeds : Text → (Nat → Bool) → Text
  | [], _ => []
  | c :: rest, chosen =>
    (if c = '\n' ∧ chosen 0 then ['\r', '\n'] else [c]) ++ returnFeeds rest fun place => chosen (place + 1)

theorem lines_returnFeeds (t : Text) (chosen : Nat → Bool) : lines (t.returnFeeds chosen) = lines t := by
  rw [lines_eq_split, lines_eq_split]
  induction t generalizing chosen with
  | nil => rfl
  | cons c rest ih =>
    rw [returnFeeds]
    split
    · rename_i hfeed
      obtain ⟨rfl, _⟩ := hfeed
      rw [List.cons_append, List.cons_append, List.nil_append, map_dropReturns_split_pair, map_dropReturns_split_cons,
        map_dropReturns_split_cons '\n', ih]
    · rw [List.cons_append, List.nil_append, map_dropReturns_split_cons, map_dropReturns_split_cons c, ih]

end Text

namespace Document

/-- A document is read from the lines of its text only. -/
theorem ofText_congr {t u : Text} (hlines : Text.lines t = Text.lines u) : ofText t = ofText u := by
  rw [ofText, read, hlines, ofText, read]

/-- The lines of a text are what stands between its line feeds without the carriage returns at the end, and
neither joining them again nor carriage returns in front of any of the line feeds make other lines or another
document. -/
theorem lines_independent_of_returns (t : Text) :
    Text.lines t = (t.splitOn '\n').map (List.rdropWhile (· == '\r')) ∧
      (∀ line ∈ Text.lines t, '\n' ∉ line ∧ line.getLast? ≠ some '\r') ∧
      Text.lines (Text.join "\n" (Text.lines t)) = Text.lines t ∧
      Text.lines (Text.join "\r\n" (Text.lines t)) = Text.lines t ∧
      ∀ chosen : Nat → Bool, Text.lines (t.returnFeeds chosen) = Text.lines t ∧
        ofText (t.returnFeeds chosen) = ofText t := by
  refine ⟨?_, fun line hline => ⟨Text.newline_not_mem_lines hline, Text.getLast?_ne_of_mem_lines hline⟩, ?_, ?_, ?_⟩
  · rw [Text.lines_eq_split, Text.split_eq_splitOn]
    rfl
  · have hnone : ∀ c ∈ ([] : Text), c = '\r' := fun c hc => absurd hc List.not_mem_nil
    exact Text.lines_join_lines hnone t
  · have hone : ∀ c ∈ ['\r'], c = '\r' := fun c hc => List.mem_singleton.mp hc
    exact Text.lines_join_lines hone t
  · intro chosen
    have hlines := Text.lines_returnFeeds t chosen
    exact ⟨hlines, ofText_congr hlines⟩

/-- Two carriage returns in front of the first line feed, none in front of the second, and one at the end. -/
def mixedEnds : Text := "Page()\r\r\n# a\r:\n- b\r"

theorem lines_independent_of_returns_mixed :
    Text.lines mixedEnds = ["Page()".toList, "# a\r:".toList, "- b".toList] ∧
      (∀ line ∈ Text.lines mixedEnds, '\n' ∉ line ∧ line.getLast? ≠ some '\r') ∧
      mixedEnds.returnFeeds (· == 14) = "Page()\r\r\n# a\r:\r\n- b\r".toList ∧
      ofText "Page()\r\r\n# a\r:\r\n- b\r" = ofText mixedEnds := by
  have hlines : Text.lines mixedEnds = ["Page()".toList, "# a\r:".toList, "- b".toList] := by decide +kernel
  have hfeeds : mixedEnds.returnFeeds (· == 14) = "Page()\r\r\n# a\r:\r\n- b\r".toList := by decide +kernel
  obtain ⟨-, hends, -, -, hchosen⟩ := lines_independent_of_returns mixedEnds
  obtain ⟨-, hdocument⟩ := hchosen (· == 14)
  rw [hfeeds] at hdocument
  exact ⟨hlines, hends, hfeeds, hdocument⟩

end Document

end ViewMarkup
