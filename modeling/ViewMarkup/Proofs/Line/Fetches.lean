import ViewMarkup.Line.Reading
import ViewMarkup.Proofs.Text.Pieces
import ViewMarkup.Proofs.Text.Words

namespace ViewMarkup

theorem not_mem_of_isBlank {blanks : Text} (hblanks : ∀ c ∈ blanks, isBlank c) {c : Char} (hc : isBlank c = false) :
    c ∉ blanks := by
  intro hmem
  rw [hblanks c hmem] at hc
  cases hc

theorem Text.count_two {c : Char} {front between rest : Text} (hfront : c ∉ front) (hbetween : c ∉ between)
    (hrest : c ∉ rest) : (front ++ c :: (between ++ c :: rest)).count c = 2 := by
  rw [List.count_append, List.count_cons_self, List.count_append, List.count_cons_self,
    List.count_eq_zero.mpr hfront, List.count_eq_zero.mpr hbetween, List.count_eq_zero.mpr hrest]

theorem Method.quote_not_mem_name (method : Method) : '"' ∉ method.name := by
  cases method <;> decide

theorem method?_name (method : Method) (rest : Text) : method? (method.name ++ rest) = some (method, rest) := by
  cases method <;> rfl

theorem eq_of_method? {t rest : Text} {method : Method} (hmethod : method? t = some (method, rest)) :
    t = method.name ++ rest := by
  obtain ⟨found, _, hafter⟩ := List.exists_of_findSome?_eq_some hmethod
  obtain ⟨left, hleft, hpair⟩ := Option.map_eq_some_iff.mp hafter
  cases hpair
  exact Text.after?_eq_some_iff.mp hleft

namespace FetchTail

/-- What follows the seed in the line that writes a fetch. -/
def text (tail : FetchTail) : Text :=
  ')' :: " from ".toList ++ '"' :: (tail.url ++ '"' :: (' ' :: tail.method.name ++
    if tail.isAuthorized then " auth".toList else []))

/-- What is read behind a seed has two quotes, and in front of the first of them one parenthesis behind blanks. -/
theorem exists_of_ofText? {t : Text} {tail : FetchTail} (hread : ofText? t = some tail) :
    ∃ blanks word rest, t = blanks ++ ')' :: word ++ '"' :: (tail.url ++ '"' :: rest) ∧
      (∀ c ∈ blanks, isBlank c) ∧ ')' ∉ word ∧ '"' ∉ word ∧ '"' ∉ tail.url ∧ '"' ∉ rest := by
  simp only [ofText?, Option.bind_eq_bind, Option.bind_eq_some_iff] at hread
  obtain ⟨close, hclose, word, hgap, more, hword, opening, hgap', address, hopening, behind, hcut, hread⟩ := hread
  obtain ⟨haddress, hquote⟩ := Text.eq_of_cut hcut
  obtain ⟨gap, hsplit, hblank, -⟩ := Text.eq_of_afterBlanks? hgap
  obtain ⟨gap', hsplit', hblank', -⟩ := Text.eq_of_afterBlanks? hgap'
  have hfree (c : Char) (hc : isBlank c = false) (hfrom : c ∉ "from".toList) : c ∉ gap ++ "from".toList ++ gap' :=
    List.not_mem_append (List.not_mem_append (not_mem_of_isBlank hblank hc) hfrom) (not_mem_of_isBlank hblank' hc)
  have ht : t = t.takeWhile isBlank ++ ')' :: (gap ++ "from".toList ++ gap') ++ '"' :: address := by
    calc t = t.takeWhile isBlank ++ Text.trimStart t := List.takeWhile_append_dropWhile.symm
      _ = t.takeWhile isBlank ++ ')' :: (gap ++ ("from".toList ++ (gap' ++ '"' :: address))) := by
        rw [Text.after?_eq_some_iff.mp hclose, hsplit, Text.after?_eq_some_iff.mp hword, hsplit',
          Text.after?_eq_some_iff.mp hopening]
        rfl
      _ = _ := by simp only [List.append_assoc, List.cons_append]
  have hbehind : tail.url = (Text.cut '"' address).1 ∧ '"' ∉ behind := by
    split at hread
    · cases hread
    simp only [Option.bind_eq_some_iff] at hread
    obtain ⟨rest, hblanks, ⟨method, left⟩, hmethod, hread⟩ := hread
    obtain ⟨blanks, rfl, hblanks, -⟩ := Text.eq_of_afterBlanks? hblanks
    rw [eq_of_method? hmethod]
    suffices hleft : tail.url = (Text.cut '"' address).1 ∧ '"' ∉ left from
      ⟨hleft.1, List.not_mem_append (not_mem_of_isBlank hblanks rfl)
        (List.not_mem_append method.quote_not_mem_name hleft.2)⟩
    split at hread
    · rename_i hend
      cases hread
      exact ⟨rfl, not_mem_of_isBlank (Text.trim_eq_nil_iff.mp hend) rfl⟩
    · simp only [Option.bind_eq_some_iff] at hread
      obtain ⟨auth, hblanks', rest, hauth, hread⟩ := hread
      obtain ⟨blanks', hsplit, hblanks', -⟩ := Text.eq_of_afterBlanks? hblanks'
      split at hread
      · rename_i hend
        cases hread
        rw [show left = _ from hsplit, Text.after?_eq_some_iff.mp hauth]
        exact ⟨rfl, List.not_mem_append (not_mem_of_isBlank hblanks' rfl)
          (List.not_mem_append (by decide) (not_mem_of_isBlank (Text.trim_eq_nil_iff.mp hend) rfl))⟩
      · cases hread
  refine ⟨t.takeWhile isBlank, gap ++ "from".toList ++ gap', behind, ?_, fun c hc => List.mem_takeWhile_imp hc,
    hfree _ rfl (by decide), hfree _ rfl (by decide), hbehind.1 ▸ hquote, hbehind.2⟩
  rw [hbehind.1, ← haddress]
  exact ht

/-- What is written behind a seed has two quotes. -/
theorem count_quote_text {tail : FetchTail} (hquote : '"' ∉ tail.url) : tail.text.count '"' = 2 := by
  have hfrom : '"' ∉ ')' :: " from ".toList := by decide
  refine Text.count_two hfrom hquote (List.not_mem_append
    (List.not_mem_cons_of_ne_of_not_mem (by decide) tail.method.quote_not_mem_name) ?_)
  split
  · decide
  · exact List.not_mem_nil

/-- Nothing is read behind a part of the seed: the quotes are those of the address, so the parenthesis in front
of them is the one behind the seed, and a seed does not end with blanks. -/
theorem ofText?_eq_none {seed : Text} {tail : FetchTail} (hne : seed ≠ [])
    (hlast : ∀ c ∈ seed.getLast?, isBlank c = false) (hquote : '"' ∉ tail.url) :
    ofText? (seed ++ tail.text) = none := by
  by_contra hsome
  obtain ⟨found, hread⟩ := Option.ne_none_iff_exists'.mp hsome
  obtain ⟨blanks, word, rest, hsplit, hblanks, hclose, hword, hurl, hrest⟩ := exists_of_ofText? hread
  have hbefore : '"' ∉ blanks ++ ')' :: word :=
    List.not_mem_append (not_mem_of_isBlank hblanks rfl) (List.not_mem_cons_of_ne_of_not_mem (by decide) hword)
  have hseed : '"' ∉ seed := by
    have hcount := congrArg (List.count '"') hsplit
    rw [List.count_append, count_quote_text hquote, Text.count_two hbefore hurl hrest] at hcount
    exact List.count_eq_zero.mp (by omega)
  have hfront : seed ++ ')' :: " from ".toList = blanks ++ ')' :: word := by
    have hbefore' : '"' ∉ seed ++ ')' :: " from ".toList := List.not_mem_append hseed (by decide)
    rw [text, ← List.append_assoc] at hsplit
    have hcut := congrArg (fun t => (Text.cut '"' t).1) hsplit
    simpa only [Text.cut_append hbefore, Text.cut_append hbefore'] using hcut
  have hopen : ')' ∉ seed := by
    have hblank : ')' ∉ blanks := not_mem_of_isBlank hblanks rfl
    have hspaces : ')' ∉ " from ".toList := by decide
    have hcount := congrArg (List.count ')') hfront
    simp only [List.count_append, List.count_cons_self, List.count_eq_zero.mpr hblank, List.count_eq_zero.mpr hclose,
      List.count_eq_zero.mpr hspaces] at hcount
    exact List.count_eq_zero.mp (by omega)
  obtain rfl : seed = blanks := by
    have hcut := congrArg (fun t => (Text.cut ')' t).1) hfront
    simpa only [Text.cut_append hopen, Text.cut_append (not_mem_of_isBlank hblanks (c := ')') rfl)] using hcut
  obtain ⟨c, hc⟩ := Option.isSome_iff_exists.mp (List.getLast?_isSome.mpr hne)
  have hblank := hblanks c (List.mem_of_getLast? hc)
  rw [hlast c hc] at hblank
  cases hblank

theorem ofText?_text {tail : FetchTail} (hne : tail.url ≠ []) (hquote : '"' ∉ tail.url) :
    ofText? tail.text = some tail := by
  obtain ⟨url, method, isAuthorized⟩ := tail
  have hmethod (rest : Text) : Text.afterBlanks? (' ' :: method.name ++ rest) = some (method.name ++ rest) := by
    cases method <;> rfl
  have hclose (rest : Text) : Text.after? ")" (Text.trimStart (')' :: " from ".toList ++ rest)) =
      some (" from ".toList ++ rest) := rfl
  have hgap (rest : Text) : Text.afterBlanks? (" from ".toList ++ rest) = some ("from".toList ++ ' ' :: rest) := rfl
  have hfrom (rest : Text) : Text.after? "from" ("from".toList ++ rest) = some rest := rfl
  have hopen (rest : Text) : Text.afterBlanks? (' ' :: '"' :: rest) = some ('"' :: rest) := rfl
  have hurl (rest : Text) : Text.after? "\"" ('"' :: rest) = some rest := rfl
  simp only [ofText?, text, hclose, hgap, hfrom, hopen, hurl, Option.bind_eq_bind, Option.bind_some,
    Text.cut_append hquote, if_neg hne, hmethod, method?_name]
  cases isAuthorized <;> rfl

end FetchTail

/-- The line that writes a fetch. -/
def fetchLine (result seed : Text) (tail : FetchTail) : Text :=
  ":fetch ".toList ++ (result ++ '(' :: (seed ++ tail.text))

/-- The shortest start is found if no shorter one has a rest that is accepted. -/
theorem shortest?_append {α : Type} {tail? : Text → Option α} {tail : α} {start rest : Text} (hne : start ≠ [])
    (hline : '\n' ∉ start) (hnone : ∀ part, part <:+ start → part ≠ [] → tail? (part ++ rest) = none)
    (hsome : tail? rest = some tail) : shortest? tail? (start ++ rest) = some (start, tail) := by
  induction start with
  | nil => exact absurd rfl hne
  | cons c start ih =>
    rw [List.mem_cons, not_or] at hline
    rw [List.cons_append, shortest?, if_neg (Ne.symm hline.1)]
    by_cases hnil : start = []
    · rw [hnil, List.nil_append, hsome]
    · have hrest : tail? (start ++ rest) = none := hnone start (List.suffix_cons c start) hnil
      rw [hrest, ih hnil hline.2 fun part hpart => hnone part (hpart.trans (List.suffix_cons c start))]
      rfl

theorem seeded?_append {seed : Text} {tail : FetchTail} (hne : seed ≠ []) (htrim : Text.trim seed = seed)
    (hline : '\n' ∉ seed) (hurl : tail.url ≠ []) (hquote : '"' ∉ tail.url) :
    seeded? (seed ++ tail.text) = some (seed, tail) := by
  obtain ⟨hfirst, hlast⟩ := Text.trim_eq_self_iff.mp htrim
  have hindent : Text.indent (seed ++ tail.text) = 0 := by
    have hhead : ∀ c ∈ (seed ++ tail.text).head?, isBlank c = false := by
      rwa [List.head?_append_of_ne_nil _ hne]
    rw [Text.indent, List.length_eq_zero_iff]
    exact Text.takeWhile_append_of_head (t := []) (by simp) hhead
  have hshortest : shortest? FetchTail.ofText? (seed ++ tail.text) = some (seed, tail) := by
    refine shortest?_append hne hline (fun part hpart hpartNe => ?_) (FetchTail.ofText?_text hurl hquote)
    refine FetchTail.ofText?_eq_none hpartNe (fun c hc => hlast c ?_) hquote
    obtain ⟨front, rfl⟩ := hpart
    rwa [List.getLast?_append_of_ne_nil _ hpartNe]
  simp [seeded?, hindent, hshortest]

theorem fetchParts?_fetchLine {result seed : Text} {tail : FetchTail} (hresult : result ≠ [])
    (hword : ∀ c ∈ result, isWord c) (hne : seed ≠ []) (htrim : Text.trim seed = seed)
    (hline : '\n' ∉ seed) (hurl : tail.url ≠ []) (hquote : '"' ∉ tail.url) :
    fetchParts? (fetchLine result seed tail) = some (result, seed, tail) := by
  have hkeyword : (Text.after? ":fetch" (fetchLine result seed tail) >>= Text.afterBlanks?) =
      some (result ++ '(' :: (seed ++ tail.text)) := by
    refine Text.afterBlanks?_append (List.cons_ne_nil ' ' []) (List.forall_mem_singleton.mpr rfl) ?_
    rw [List.head?_append_of_ne_nil _ hresult]
    exact fun c hc => isBlank_eq_false_of_isWord (hword c (List.mem_of_mem_head? hc))
  have hname : Text.word? (result ++ '(' :: (seed ++ tail.text)) = some (result, '(' :: (seed ++ tail.text)) :=
    Text.word?_append hresult hword (by rintro c ⟨⟩; rfl)
  have hopen : Text.after? "(" (Text.trimStart ('(' :: (seed ++ tail.text))) = some (seed ++ tail.text) := rfl
  simp only [fetchParts?, hkeyword, hname, hopen, seeded?_append hne htrim hline hurl hquote, Option.bind_eq_bind,
    Option.bind_some]
  rfl

theorem trim_fetchLine (result seed : Text) (tail : FetchTail) :
    Text.trim (fetchLine result seed tail) = fetchLine result seed tail := by
  obtain ⟨url, method, isAuthorized⟩ := tail
  have hend (front between rest : Text) : front ++ (result ++ '(' :: (seed ++
      (')' :: between ++ '"' :: (url ++ '"' :: (' ' :: method.name ++ rest))))) =
        (front ++ (result ++ '(' :: (seed ++ (')' :: between ++ '"' :: (url ++ ['"', ' ']))))) ++
          (method.name ++ rest) := by simp
  have hline : fetchLine result seed ⟨url, method, isAuthorized⟩ = _ :=
    hend ":fetch ".toList " from ".toList (if isAuthorized then " auth".toList else [])
  rw [Text.trim_eq_self_iff]
  refine ⟨by rintro c ⟨⟩; rfl, ?_⟩
  rw [hline, List.getLast?_append_of_ne_nil]
  · cases method <;> cases isAuthorized <;> rintro c ⟨⟩ <;> rfl
  · cases method <;> exact List.cons_ne_nil _ _

namespace SourceLine

/-- A fetch is read back from the line that writes it, whatever its seed looks like. -/
theorem reads_fetchLine {result seed url lead trail : Text} (hresult : result ≠ []) (hword : ∀ c ∈ result, isWord c)
    (hseed : seed ≠ []) (hseedTrim : Text.trim seed = seed) (hseedLine : '\n' ∉ seed) (hurl : url ≠ [])
    (hurlTrim : Text.trim url = url) (hquote : '"' ∉ url) (method : Method) (isAuthorized : Bool)
    (hlead : ∀ c ∈ lead, isBlank c) (htrail : ∀ c ∈ trail, isBlank c) (number indent : Int) (inList : Bool) :
    ∃ log, read? ⟨lead ++ fetchLine result seed ⟨url, method, isAuthorized⟩ ++ trail, number, indent, inList⟩ =
      some ⟨some (.leaf (.fetch
        { result, seed, url := .ofText url, method,
          headers := if isAuthorized then [("Authorization", "Bearer $\x7btoken\x7d")] else [], body? := none })),
        [], log⟩ := by
  have hline : trimmed ⟨lead ++ fetchLine result seed ⟨url, method, isAuthorized⟩ ++ trail, number, indent, inList⟩ =
      fetchLine result seed ⟨url, method, isAuthorized⟩ :=
    (Text.trim_between hlead htrail (List.cons_ne_nil _ _) (trim_fetchLine _ _ _)).1
  have hcomment : Text.after? "//" (fetchLine result seed ⟨url, method, isAuthorized⟩) = none := rfl
  have hdeclaration : DeclarationParts.ofText? (fetchLine result seed ⟨url, method, isAuthorized⟩) = none := rfl
  have hloop : loop? (fetchLine result seed ⟨url, method, isAuthorized⟩) = none := rfl
  have hguard : guard? (fetchLine result seed ⟨url, method, isAuthorized⟩) = none := rfl
  have hparts : fetchParts? (fetchLine result seed ⟨url, method, isAuthorized⟩) =
      some (result, seed, ⟨url, method, isAuthorized⟩) :=
    fetchParts?_fetchLine hresult hword hseed hseedTrim hseedLine hurl hquote
  refine ⟨[⟨.debug, .lines, "fetch directive: variable=" ++ result ++ " init=" ++ seed ++ " url=" ++ url ++
    " method=" ++ method.name⟩], ?_⟩
  rw [read?, comment?, declaration?, directive?, hline]
  simp only [hcomment, hdeclaration, hloop, hguard, fetch?, hparts, Option.map_none, Option.map_some, hseedTrim,
    hurlTrim]
  rfl

/-- A seed that holds what looks like its own end, in front of an address that is an expression. -/
theorem reads_fetchLine_nested :
    fetchLine "x" "T) from \"/u\" GET" ⟨"\x7bbase\x7d", .post, true⟩ =
        ":fetch x(T) from \"/u\" GET) from \"\x7bbase\x7d\" POST auth".toList ∧
      ∃ log, read? ⟨"  ".toList ++ fetchLine "x" "T) from \"/u\" GET" ⟨"\x7bbase\x7d", .post, true⟩ ++ [],
          4, 2, false⟩ =
        some ⟨some (.leaf (.fetch
          { result := "x", seed := "T) from \"/u\" GET", url := .expression "base", method := .post,
            headers := [("Authorization", "Bearer $\x7btoken\x7d")], body? := none })), [], log⟩ :=
  ⟨by decide +kernel, reads_fetchLine (by decide) (List.all_eq_true.mp (by decide)) (by decide) (by decide +kernel)
    (by decide) (by decide) (by decide +kernel) (by decide) .post true (List.all_eq_true.mp (by decide)) (by simp)
    4 2 false⟩

end SourceLine

end ViewMarkup
