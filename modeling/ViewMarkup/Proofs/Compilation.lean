import ViewMarkup.Compilation
import ViewMarkup.Proofs.Json.Integers
import ViewMarkup.Proofs.React.Effects
import ViewMarkup.Proofs.Text.Lines

namespace ViewMarkup

/-- A fetch whose address is a text of nothing but blanks. -/
def Fetch.LacksUrl (fetch : Fetch) : Prop :=
  ∃ url, fetch.url = .text url ∧ ∀ c ∈ url, isBlank c

theorem React.hasBlankUrl_iff {fetch : Fetch} : hasBlankUrl fetch ↔ fetch.LacksUrl := by
  unfold hasBlankUrl Fetch.LacksUrl
  cases fetch.url with
  | expression raw => simp
  | text url => simp [Text.trim_eq_nil_iff]

theorem React.hasBlankUrl_eq_false_iff {fetch : Fetch} : hasBlankUrl fetch = false ↔ ¬ fetch.LacksUrl := by
  rw [← hasBlankUrl_iff, Bool.not_eq_true]

/-- A fetch fails for want of an address or for an integer in its seed, or it does not fail. -/
theorem React.fetchFailure?_cases (fetch : Fetch) :
    (fetch.LacksUrl ∧ fetchFailure? fetch = some (.missingUrl fetch.result)) ∨
      (¬ fetch.LacksUrl ∧ ∃ error, InitialState.ofSeed fetch.seed = .error error ∧
        fetchFailure? fetch = some (.longInteger error)) ∨
      (¬ fetch.LacksUrl ∧ ∃ state, InitialState.ofSeed fetch.seed = .ok state ∧
        fetchFailure? fetch = none) := by
  unfold fetchFailure?
  rw [← hasBlankUrl_iff]
  cases hasBlankUrl fetch with
  | true => simp
  | false => cases InitialState.ofSeed fetch.seed <;> simp

/-- The fetch that a node is. -/
def Content.fetch? : Content → Option Fetch
  | fetch request => some request
  | _ => none

/-- The fetches of a document in order. -/
def Document.fetches (document : Document) : List Fetch :=
  document.contents.filterMap Content.fetch?

/-- Nothing in a document can fail but a fetch. -/
theorem Document.findSome?_contentFailure (t : Text) :
    (ofText t).contents.findSome? React.contentFailure? =
      (ofText t).fetches.findSome? React.fetchFailure? := by
  have hknown : ∀ content ∈ (ofText t).contents, content ≠ .unknown := by
    rintro content hcontent rfl
    obtain ⟨role, hrole⟩ := exists_role hcontent
    cases hrole
  unfold fetches
  revert hknown
  generalize (ofText t).contents = contents
  intro hknown
  induction contents with
  | nil => rfl
  | cons content contents ih =>
    obtain ⟨hcontent, hrest⟩ := List.forall_mem_cons.mp hknown
    cases content with
    | fetch fetch => simp [List.findSome?_cons, React.contentFailure?, Content.fetch?, ih hrest]
    | unknown => exact absurd rfl hcontent
    | _ => exact ih hrest

namespace Compilation

variable (t : Text) (resolver : Resolver) (settings : Settings)

theorem moduleLines_eq_cons (unit : Text) (signature : Signature) (imports body : List Text)
    (emitted : React.Emitted) :
    ∃ second rest, React.moduleLines unit signature imports body emitted = React.header :: second :: rest := by
  cases imports <;> exact ⟨_, _, rfl⟩

/-- The header is the first line of every module. -/
theorem header_isPrefix_moduleText (document : Document) (options : React.Options)
    (emitted : React.Emitted) :
    React.header ++ "\n".toList <+: React.moduleText document resolver options emitted := by
  unfold React.moduleText
  obtain ⟨second, rest, hlines⟩ := moduleLines_eq_cons options.unit
    (document.signature?.getD ⟨React.defaultName, []⟩) _ (React.forestMarkup options.unit 3 document.nodes)
    emitted
  dsimp only
  rw [hlines, Text.join, List.intercalate_cons_cons]
  exact List.prefix_append _ _

/-- The first fetch for which nothing can be generated decides what compiling a text gives. -/
theorem ofText_eq :
    ofText t resolver settings =
      match (Document.ofText t).fetches.findSome? React.fetchFailure? with
      | none => .ok ⟨React.moduleText (Document.ofText t) resolver settings.options
          (React.Emitted.empty.add
            (React.forestEffects settings.options.format (Document.ofText t).nodes)).1, false⟩
      | some failure =>
        if isReported failure then .ok ⟨fallback (documentName (Document.ofText t)) failure, true⟩
        else .error failure := by
  rw [ofText, ofDocument, run, React.generate_ofText, Document.findSome?_contentFailure]
  cases (Document.ofText t).fetches.findSome? React.fetchFailure? with
  | none => rfl
  | some failure =>
    dsimp only
    split <;> rfl

variable {t resolver settings}

theorem ofText_of_none (hnone : (Document.ofText t).fetches.findSome? React.fetchFailure? = none) :
    ∃ code, ofText t resolver settings = .ok ⟨code, false⟩ ∧ React.header ++ "\n".toList <+: code := by
  have hmodule := ofText_eq t resolver settings
  rw [hnone] at hmodule
  exact ⟨_, hmodule, header_isPrefix_moduleText resolver _ settings.options _⟩

theorem fallback_missingUrl (name result : Text) :
    fallback name (.missingUrl result) = "// Error: failed to generate " ++ name ++
      ": Fetch node for '" ++ result ++ "' must have a URL\n" := by
  have hlead : ": Fetch node for '".toList = ": ".toList ++ "Fetch node for '".toList := by decide +kernel
  have htrail : "' must have a URL\n".toList = "' must have a URL".toList ++ "\n".toList := by decide +kernel
  unfold fallback React.Failure.message
  simp only [hlead, htrail, List.append_assoc]

theorem ofText_of_missingUrl {result : Text}
    (hfirst : (Document.ofText t).fetches.findSome? React.fetchFailure? = some (.missingUrl result)) :
    ofText t resolver settings =
      .ok ⟨fallback (documentName (Document.ofText t)) (.missingUrl result), true⟩ := by
  rw [ofText_eq, hfirst]
  rfl

theorem ofText_of_longInteger {error : JsonError}
    (hfirst : (Document.ofText t).fetches.findSome? React.fetchFailure? = some (.longInteger error)) :
    ofText t resolver settings = .error (.longInteger error) := by
  rw [ofText_eq, hfirst]
  rfl

/-- Without long runs of digits in seeds, a fetch fails exactly for want of an address. -/
theorem findSome?_fetchFailure {fetches : List Fetch}
    (hruns : ∀ fetch ∈ fetches, ∀ digits, integerDigitLimit < digits → ¬ Text.HasDigits digits fetch.seed) :
    fetches.findSome? React.fetchFailure? =
      (fetches.find? React.hasBlankUrl).map fun fetch => .missingUrl fetch.result := by
  induction fetches with
  | nil => rfl
  | cons fetch fetches ih =>
    obtain ⟨hfetch, hrest⟩ := List.forall_mem_cons.mp hruns
    cases hblank : React.hasBlankUrl fetch with
    | true => simp [React.fetchFailure?, hblank]
    | false =>
      have hseed : ∃ state, React.InitialState.ofSeed fetch.seed = .ok state := by
        cases hstate : React.InitialState.ofSeed fetch.seed with
        | ok state => exact ⟨state, rfl⟩
        | error error =>
          obtain ⟨digits, _, hlimit, hdigits⟩ := React.InitialState.hasDigits_of_ofSeed hstate
          exact absurd hdigits (hfetch digits hlimit)
      have hnone := React.fetchFailure?_eq_none_iff.mpr ⟨hblank, hseed⟩
      rw [List.findSome?_cons, hnone, List.find?_cons_of_neg (by simp [hblank])]
      exact ih hrest

variable (t resolver settings)

/-- The first fetch without an address has a comment in the place of the module, and without such a
fetch there is a module. -/
theorem isFallback_iff_lacksUrl
    (hruns : ∀ fetch ∈ (Document.ofText t).fetches, ∀ digits, integerDigitLimit < digits →
      ¬ Text.HasDigits digits fetch.seed) :
    ∃ compilation, ofText t resolver settings = .ok compilation ∧
      (compilation.isFallback ↔ ∃ fetch ∈ (Document.ofText t).fetches, fetch.LacksUrl) ∧
      (∀ before fetch after, (Document.ofText t).fetches = before ++ fetch :: after →
        (∀ earlier ∈ before, ¬ earlier.LacksUrl) → fetch.LacksUrl →
        compilation.code = "// Error: failed to generate " ++ documentName (Document.ofText t) ++
          ": Fetch node for '" ++ fetch.result ++ "' must have a URL\n") ∧
      (compilation.isFallback = false → React.header ++ "\n".toList <+: compilation.code) := by
  have hfailure := findSome?_fetchFailure hruns
  cases hfind : (Document.ofText t).fetches.find? React.hasBlankUrl with
  | none =>
    rw [hfind] at hfailure
    obtain ⟨code, hcode, hheader⟩ := ofText_of_none hfailure
    have hurls : ∀ fetch ∈ (Document.ofText t).fetches, ¬ fetch.LacksUrl := fun fetch hfetch hlacks =>
      List.find?_eq_none.mp hfind fetch hfetch (React.hasBlankUrl_iff.mpr hlacks)
    refine ⟨_, hcode, ?_, ?_, fun _ => hheader⟩
    · simpa using hurls
    · intro before fetch after hsplit _ hlacks
      exact absurd hlacks (hurls fetch (by simp [hsplit]))
  | some first =>
    rw [hfind] at hfailure
    refine ⟨_, ofText_of_missingUrl hfailure, ?_, ?_, fun hmodule => absurd hmodule (by simp)⟩
    · exact iff_of_true rfl ⟨first, List.mem_of_find?_eq_some hfind,
        React.hasBlankUrl_iff.mp (List.find?_some hfind)⟩
    · intro before fetch after hsplit hearlier hlacks
      have hfirst : (Document.ofText t).fetches.find? React.hasBlankUrl = some fetch := by
        refine List.find?_eq_some_iff_append.mpr
          ⟨React.hasBlankUrl_iff.mpr hlacks, before, after, hsplit, fun earlier hmem => ?_⟩
        rw [React.hasBlankUrl_eq_false_iff.mpr (hearlier earlier hmem)]
        rfl
      obtain rfl : first = fetch := Option.some.inj (hfind.symm.trans hfirst)
      exact fallback_missingUrl _ _

/-- The second of three fetches is the first without an address. -/
def guardedFetch : Text :=
  "Page()\n:fetch a(null) from \"/a\" GET\n:if ok\n  :fetch b([1]) from \" \" POST\n:fetch c(T) from \" \" GET"

theorem isFallback_iff_lacksUrl_guarded :
    ∃ compilation, ofText guardedFetch Resolver.default Settings.default = .ok compilation ∧
      compilation.isFallback ∧
      compilation.code =
        "// Error: failed to generate Page: Fetch node for 'b' must have a URL\n".toList := by
  have hfetches : (Document.ofText guardedFetch).fetches =
      [⟨"a", "null", .text "/a", .get, [], none⟩, ⟨"b", "[1]", .text [], .post, [], none⟩,
        ⟨"c", "T", .text [], .get, [], none⟩] := by
    decide +kernel
  have hshort : ∀ fetch ∈ (Document.ofText guardedFetch).fetches, fetch.seed.length ≤ 4 := by
    rw [hfetches]
    decide +kernel
  obtain ⟨compilation, hok, hiff, hcode, -⟩ := isFallback_iff_lacksUrl guardedFetch Resolver.default
    Settings.default fun fetch hfetch digits hlimit hdigits => by
      have hfew := hdigits.le_length
      have hseed := hshort fetch hfetch
      rw [integerDigitLimit] at hlimit
      omega
  have hlacks : Fetch.LacksUrl ⟨"b", "[1]", .text [], .post, [], none⟩ := ⟨[], rfl, by simp⟩
  have ha : ¬ Fetch.LacksUrl ⟨"a", "null", .text "/a", .get, [], none⟩ := by
    simp [Fetch.LacksUrl, isBlank]
  refine ⟨compilation, hok, hiff.mpr ⟨_, hfetches ▸ .tail _ (.head _), hlacks⟩, ?_⟩
  refine (hcode [_] _ _ hfetches ?_ hlacks).trans (by decide +kernel)
  exact List.forall_mem_singleton.mpr ha

/-- What compiling gives, with the fetch that decided it. -/
theorem ofText_cases :
    (∃ code, ofText t resolver settings = .ok ⟨code, false⟩ ∧ React.header ++ "\n".toList <+: code) ∨
      ∃ before fetch after, (Document.ofText t).fetches = before ++ fetch :: after ∧
        (∀ earlier ∈ before, React.fetchFailure? earlier = none) ∧
        ((fetch.LacksUrl ∧ ofText t resolver settings =
            .ok ⟨fallback (documentName (Document.ofText t)) (.missingUrl fetch.result), true⟩) ∨
          (¬ fetch.LacksUrl ∧ ∃ error, React.InitialState.ofSeed fetch.seed = .error error ∧
            ofText t resolver settings = .error (.longInteger error))) := by
  cases hfirst : (Document.ofText t).fetches.findSome? React.fetchFailure? with
  | none => exact .inl (ofText_of_none hfirst)
  | some failure =>
    obtain ⟨before, fetch, after, hsplit, hfails, hearlier⟩ := List.findSome?_eq_some_iff.mp hfirst
    refine .inr ⟨before, fetch, after, hsplit, hearlier, ?_⟩
    rw [← hfails] at hfirst
    obtain ⟨hlacks, hmissing⟩ | ⟨hurl, error, hseed, hlong⟩ | ⟨_, _, _, hnone⟩ :=
      React.fetchFailure?_cases fetch
    · exact .inl ⟨hlacks, ofText_of_missingUrl (hfirst.trans hmissing)⟩
    · exact .inr ⟨hurl, error, hseed, ofText_of_longInteger (hfirst.trans hlong)⟩
    · exact absurd (hfails.symm.trans hnone) (by simp)

section Ones

/-- A row of ones. -/
def ones (count : Nat) : Text := List.replicate count '1'

/-- What follows the seed in `fetchOfOnes`. -/
def afterOnes : Text := ") from \"/u\" GET"

/-- A line that fetches, with a row of ones as its seed. -/
def fetchOfOnes (count : Nat) : Text := ":fetch x(" ++ ones count ++ afterOnes

theorem trim_ones (count : Nat) : Text.trim (ones count) = ones count := by
  refine Text.trim_eq_self (fun c hc => ?_) (fun c hc => ?_)
  · rw [List.eq_of_mem_replicate (List.mem_of_mem_head? hc)]
    rfl
  · rw [List.eq_of_mem_replicate (List.mem_of_mem_getLast? hc)]
    rfl

theorem scanNumber_ones {count : Nat} (hlong : integerDigitLimit < count + 1) :
    Json.scanNumber (ones (count + 1)) = .error (.integerTooLong (count + 1)) := by
  have hwhole : Json.wholeDigits (ones (count + 1)) = ones (count + 1) := by
    change (ones (count + 1)).takeWhile Char.isDigit = _
    exact List.takeWhile_eq_self_iff.mpr fun c hc => List.eq_of_mem_replicate hc ▸ rfl
  have hrest : (ones (count + 1)).drop (ones (count + 1)).length = [] := List.drop_length
  have hlength : (ones (count + 1)).length = count + 1 := List.length_replicate
  unfold Json.scanNumber
  split
  rename_i negative body hsign
  cases hsign
  rw [hwhole]
  split
  · rename_i hnil
    cases hnil
  · simp only [hrest]
    simp [Json.fractionDigits, exponent?, hlength, hlong]

theorem read_ones {count : Nat} (hlong : integerDigitLimit < count + 1) :
    Json.read (ones (count + 1)) = .error (.integerTooLong (count + 1)) := by
  have hblanks : Json.skipBlanks (ones (count + 1)) = ones (count + 1) := rfl
  have hvalue (fuel : Nat) :
      Json.scanValue (fuel + 1) (ones (count + 1)) = Json.scanNumber (ones (count + 1)) := rfl
  have hscan : Json.scanDocument (ones (count + 1)) = .error (.integerTooLong (count + 1)) := by
    unfold Json.scanDocument
    split
    · rename_i hmark
      cases hmark
    · rw [hblanks, hvalue, scanNumber_ones hlong]
  rw [Json.read, hscan]
  rfl

theorem ofSeed_ones {count : Nat} (hlong : integerDigitLimit < count + 1) :
    React.InitialState.ofSeed (ones (count + 1)) = .error (.integerTooLong (count + 1)) := by
  have hbrackets : Text.before? "[]" (ones (count + 1)) = none := by
    rw [Text.before?, ones, List.reverse_replicate]
    rfl
  have hquotes : Text.replaceChar '\'' '"' (ones (count + 1)) = ones (count + 1) := List.map_replicate
  simp only [React.InitialState.ofSeed, trim_ones, hbrackets, hquotes, read_ones hlong]
  rfl

/-- The seed goes on as long as there are ones. -/
theorem shortest?_ones (count : Nat) :
    shortest? FetchTail.ofText? (ones (count + 1) ++ afterOnes) =
      some (ones (count + 1), ⟨"/u", .get, false⟩) := by
  induction count with
  | zero => decide +kernel
  | succ count ih =>
    have hrest : FetchTail.ofText? (ones (count + 1) ++ afterOnes) = none := rfl
    rw [ones, List.replicate_succ, ← ones, List.cons_append, shortest?, if_neg (by decide), hrest, ih]
    rfl

theorem fetchParts?_ones (count : Nat) :
    fetchParts? (fetchOfOnes (count + 1)) = some ("x".toList, ones (count + 1), ⟨"/u", .get, false⟩) := by
  have hindent : Text.indent (ones (count + 1) ++ afterOnes) = 0 := rfl
  have hseed : seeded? (ones (count + 1) ++ afterOnes) = some (ones (count + 1), ⟨"/u", .get, false⟩) := by
    unfold seeded?
    rw [hindent]
    simp [shortest?_ones]
  have hword : Text.after? ":fetch" (fetchOfOnes (count + 1)) >>= Text.afterBlanks? =
      some ("x(" ++ ones (count + 1) ++ afterOnes) := rfl
  have hresult : Text.word? ("x(" ++ ones (count + 1) ++ afterOnes) =
      some ("x".toList, "(" ++ ones (count + 1) ++ afterOnes) := rfl
  have hopen : Text.after? "(" (Text.trimStart ("(" ++ ones (count + 1) ++ afterOnes)) =
      some (ones (count + 1) ++ afterOnes) := rfl
  simp only [fetchParts?, hword, hresult, hopen, hseed, Option.bind_eq_bind, Option.bind_some]
  rfl

theorem trim_fetchOfOnes (count : Nat) : Text.trim (fetchOfOnes count) = fetchOfOnes count := by
  refine Text.trim_eq_self (fun c hc => ?_) (fun c hc => ?_)
  · cases hc
    rfl
  · unfold fetchOfOnes at hc
    rw [List.getLast?_append] at hc
    cases hc
    rfl

theorem read?_ones (count : Nat) (number indent : Int) (inList : Bool) :
    ∃ log, SourceLine.read? ⟨fetchOfOnes (count + 1), number, indent, inList⟩ =
      some ⟨some (.leaf (.fetch ⟨"x", ones (count + 1), .text "/u", .get, [], none⟩)), [], log⟩ := by
  have hcomment : Text.after? "//" (fetchOfOnes (count + 1)) = none := rfl
  have hdeclaration : DeclarationParts.ofText? (fetchOfOnes (count + 1)) = none := rfl
  have hloop : loop? (fetchOfOnes (count + 1)) = none := rfl
  have hguard : guard? (fetchOfOnes (count + 1)) = none := rfl
  have hurl : Inline.ofText (Text.trim "/u".toList) = .text "/u".toList := by decide +kernel
  simp only [SourceLine.read?, SourceLine.comment?, SourceLine.declaration?, SourceLine.directive?,
    SourceLine.trimmed, trim_fetchOfOnes, hcomment, hdeclaration, hloop, hguard, fetch?, fetchParts?_ones,
    Option.map_none, Option.map_some, trim_ones, hurl]
  exact ⟨_, rfl⟩

theorem lines_ones (count : Nat) :
    Text.lines ("Page()\n" ++ fetchOfOnes count) = ["Page()".toList, fetchOfOnes count] := by
  have hplain {c : Char} (hlead : c ∉ ":fetch x(".toList) (hone : c ≠ '1') (hafter : c ∉ afterOnes) :
      c ∉ fetchOfOnes count := by
    unfold fetchOfOnes
    rw [List.mem_append, List.mem_append, not_or, not_or]
    exact ⟨⟨hlead, fun hmem => hone (List.eq_of_mem_replicate hmem)⟩, hafter⟩
  have hreturns : '\r' ∉ fetchOfOnes count := hplain (by decide +kernel) (by decide) (by decide +kernel)
  have hfeeds : '\n' ∉ fetchOfOnes count := hplain (by decide +kernel) (by decide) (by decide +kernel)
  have hcut : "Page()\n".toList ++ fetchOfOnes count = "Page()".toList ++ '\n' :: fetchOfOnes count := rfl
  rw [hcut, Text.lines_append (by decide +kernel) (by decide +kernel) hreturns,
    Text.lines_of_not_mem hfeeds hreturns]

theorem fetches_ones (count : Nat) :
    (Document.ofText ("Page()\n" ++ fetchOfOnes (count + 1))).fetches =
      [⟨"x", ones (count + 1), .text "/u", .get, [], none⟩] := by
  obtain ⟨log, hread⟩ := read?_ones count 1 0 false
  have hne : fetchOfOnes (count + 1) ≠ [] := by
    intro hnil
    cases hnil
  have hindent : Text.indent (fetchOfOnes (count + 1)) = 0 := rfl
  have hitem : item? (fetchOfOnes (count + 1)) = none := rfl
  rw [Document.fetches, Document.contents, Document.ofText_of_lines (lines_ones _) (by decide +kernel)]
  simp only [Document.draft, Draft.run, Draft.step, trim_fetchOfOnes, if_neg hne, hitem, hindent]
  simp only [Draft.close, Draft.settle, Draft.readLine, hindent, Draft.empty, Option.isSome_none,
    Bool.false_and]
  rw [Int.natCast_zero, hread]
  rfl

end Ones

/-- Nothing is left of a text exactly if the first fetch that fails has a long integer in its seed; any
other text becomes a module or a comment on a fetch. -/
theorem error_iff_longInteger :
    (∀ failure, ofText t resolver settings = .error failure ↔
      ∃ before fetch after digits, (Document.ofText t).fetches = before ++ fetch :: after ∧
        (∀ earlier ∈ before, ¬ earlier.LacksUrl ∧
          ∃ state, React.InitialState.ofSeed earlier.seed = .ok state) ∧
        ¬ fetch.LacksUrl ∧ React.InitialState.ofSeed fetch.seed = .error (.integerTooLong digits) ∧
        4300 < digits ∧ Text.HasDigits digits fetch.seed ∧
        failure = .longInteger (.integerTooLong digits)) ∧
      ∀ compilation, ofText t resolver settings = .ok compilation →
        if compilation.isFallback then
          ∃ fetch ∈ (Document.ofText t).fetches, fetch.LacksUrl ∧
            compilation.code = "// Error: failed to generate " ++ documentName (Document.ofText t) ++
              ": Fetch node for '" ++ fetch.result ++ "' must have a URL\n"
        else React.header ++ "\n".toList <+: compilation.code := by
  have hcases := ofText_cases t resolver settings
  refine ⟨fun failure => ⟨fun herror => ?_, ?_⟩, fun compilation hok => ?_⟩
  · rw [herror] at hcases
    obtain ⟨_, hmodule, _⟩ | ⟨before, fetch, after, hsplit, hearlier, hfetch⟩ := hcases
    · cases hmodule
    obtain ⟨_, hcomment⟩ | ⟨hurl, error, hseed, hfailure⟩ := hfetch
    · cases hcomment
    obtain ⟨digits, rfl, hlimit, hdigits⟩ := React.InitialState.hasDigits_of_ofSeed hseed
    refine ⟨before, fetch, after, digits, hsplit, fun earlier hmem => ?_, hurl, hseed, hlimit, hdigits,
      Except.error.inj hfailure⟩
    obtain ⟨hblank, hstate⟩ := React.fetchFailure?_eq_none_iff.mp (hearlier earlier hmem)
    exact ⟨React.hasBlankUrl_eq_false_iff.mp hblank, hstate⟩
  · rintro ⟨before, fetch, after, digits, hsplit, hearlier, hurl, hseed, -, -, rfl⟩
    refine ofText_of_longInteger (List.findSome?_eq_some_iff.mpr
      ⟨before, fetch, after, hsplit, ?_, fun earlier hmem => ?_⟩)
    · simp [React.fetchFailure?, React.hasBlankUrl_eq_false_iff.mpr hurl, hseed]
    · obtain ⟨hearlierUrl, hstate⟩ := hearlier earlier hmem
      exact React.fetchFailure?_eq_none_iff.mpr
        ⟨React.hasBlankUrl_eq_false_iff.mpr hearlierUrl, hstate⟩
  · rw [hok] at hcases
    obtain ⟨code, hmodule, hheader⟩ | ⟨before, fetch, after, hsplit, _, hfetch⟩ := hcases
    · cases hmodule
      exact hheader
    obtain ⟨hlacks, hcomment⟩ | ⟨_, _, _, hfailure⟩ := hfetch
    · cases hcomment
      exact ⟨fetch, by simp [hsplit], hlacks, fallback_missingUrl _ _⟩
    · cases hfailure

/-- One digit more than are read, and nothing is left of the text. -/
theorem error_of_ones :
    ofText ("Page()\n" ++ fetchOfOnes 4301) Resolver.default Settings.default =
      .error (.longInteger (.integerTooLong 4301)) := by
  have hurl : ¬ Fetch.LacksUrl ⟨"x", ones 4301, .text "/u", .get, [], none⟩ := by
    simp [Fetch.LacksUrl, isBlank]
  have hlong : integerDigitLimit < 4300 + 1 := by decide
  apply ofText_of_longInteger
  rw [fetches_ones 4300, List.findSome?_singleton, React.fetchFailure?,
    React.hasBlankUrl_eq_false_iff.mpr hurl, ofSeed_ones hlong]
  rfl

end Compilation

end ViewMarkup
