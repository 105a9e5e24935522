import ViewMarkup.Proofs.Compilation
import ViewMarkup.Proofs.React.References
import ViewMarkup.Proofs.Signature.Entries
import ViewMarkup.Proofs.Signature.RoundTrip

namespace ViewMarkup

/-- The characters that end a line of code: the line feed, the carriage return and the separators of lines and
paragraphs. -/
def isLineTerminator (c : Char) : Bool :=
  c == '\n' || c == '\r' || c == '\u2028' || c == '\u2029'

theorem isBlank_of_isLineTerminator {c : Char} (hterminator : isLineTerminator c) : isBlank c := by
  simp only [isLineTerminator, Bool.or_eq_true, beq_iff_eq] at hterminator
  obtain ((rfl | rfl) | rfl) | rfl := hterminator <;> rfl

theorem isLineTerminator_eq_false_of_isWord {c : Char} (hword : isWord c) : isLineTerminator c = false := by
  by_contra hterminator
  have hblank := isBlank_of_isLineTerminator (Bool.not_eq_false _ ▸ hterminator)
  rw [isBlank_eq_false_of_isWord hword] at hblank
  cases hblank

namespace Text

/-- One comment, and nothing but the comment: no line ends in front of the line feed at its end. -/
def IsLineComment (t : Text) : Prop :=
  ∃ body : Text, t = "//" ++ body ++ "\n" ∧ ∀ c ∈ body, isLineTerminator c = false

theorem isLineComment_iff (body : Text) :
    IsLineComment ("//" ++ body ++ "\n") ↔ ∀ c ∈ body, isLineTerminator c = false := by
  constructor
  · rintro ⟨other, heq, hother⟩
    obtain rfl : body = other := List.append_cancel_left (List.append_cancel_right heq)
    exact hother
  · exact fun hbody => ⟨body, rfl, hbody⟩

/-- A word and a list in parentheses. -/
def IsSignature (t : Text) : Prop :=
  ∃ name parameters : Text, name ≠ [] ∧ (∀ c ∈ name, isWord c) ∧ t = name ++ '(' :: (parameters ++ [')'])

end Text

theorem Signature.isWord_of_parts? {t name parameters : Text} (hparts : parts? t = some (name, parameters)) :
    name ≠ [] ∧ ∀ c ∈ name, isWord c := by
  unfold parts? at hparts
  split at hparts
  · cases hparts
  · rename_i hne
    split at hparts
    · split at hparts
      · cases hparts
        exact ⟨hne, fun c hc => List.mem_takeWhile_imp hc⟩
      · cases hparts
    · cases hparts

theorem Signature.isSignature_iff {t : Text} (hline : '\n' ∉ t) : t.IsSignature ↔ (parts? t).isSome := by
  constructor
  · rintro ⟨name, parameters, hne, hname, rfl⟩
    have hparameters : '\n' ∉ parameters := fun hmem => hline (by simp [hmem])
    rw [parts?_append hne hname hparameters]
    rfl
  · intro hsome
    obtain ⟨⟨name, parameters⟩, hparts⟩ := Option.isSome_iff_exists.mp hsome
    obtain ⟨hne, hname⟩ := isWord_of_parts? hparts
    exact ⟨name, parameters, hne, hname, eq_of_parts? hparts⟩

/-- The result of every fetch of a document is a word. -/
theorem Document.isWord_result {t : Text} {fetch : Fetch} (hfetch : fetch ∈ (ofText t).fetches) :
    ∀ c ∈ fetch.result, isWord c := by
  obtain ⟨content, hcontent, hsome⟩ := List.mem_filterMap.mp hfetch
  have hnamed := named_content t content hcontent
  cases content with
  | fetch request =>
    cases hsome
    exact hnamed.word
  | _ => cases hsome

namespace Compilation

/-- What the comment says, between its slashes and its line feed. -/
def fallbackBody (name result : Text) : Text :=
  " Error: failed to generate " ++ name ++ ": Fetch node for '" ++ result ++ "' must have a URL"

theorem fallback_eq (name result : Text) :
    fallback name (.missingUrl result) = "//" ++ fallbackBody name result ++ "\n" := by
  have hlead : "// Error: failed to generate ".toList = "//".toList ++ " Error: failed to generate ".toList := by
    decide +kernel
  have htrail : "' must have a URL\n".toList = "' must have a URL".toList ++ "\n".toList := by decide +kernel
  unfold fallbackBody
  rw [fallback_missingUrl, hlead, htrail]
  simp only [List.append_assoc]

/-- Only the name and the result can bring a character that ends a line. -/
theorem mem_fallbackBody {name result : Text} {c : Char} (hc : c ∈ fallbackBody name result)
    (hterminator : isLineTerminator c) : c ∈ name ∨ c ∈ result := by
  have hplain {t : Text} (ht : (t.all fun c => !isLineTerminator c) = true) : c ∉ t := by
    intro hmem
    simpa [hterminator] using List.all_eq_true.mp ht c hmem
  unfold fallbackBody at hc
  simp only [List.mem_append] at hc
  obtain (((hlead | hname) | hmiddle) | hresult) | htrail := hc
  · exact absurd hlead (hplain (by decide +kernel))
  · exact .inl hname
  · exact absurd hmiddle (hplain (by decide +kernel))
  · exact .inr hresult
  · exact absurd htrail (hplain (by decide +kernel))

/-- The comment is one line exactly if the name is. -/
theorem isLineComment_fallback_iff {name result : Text} (hresult : ∀ c ∈ result, isWord c) :
    (fallback name (.missingUrl result)).IsLineComment ↔ ∀ c ∈ name, isLineTerminator c = false := by
  rw [fallback_eq, Text.isLineComment_iff]
  constructor
  · intro hbody c hc
    apply hbody
    unfold fallbackBody
    simp [hc]
  · intro hname c hc
    by_contra hterminator
    rw [Bool.not_eq_false] at hterminator
    obtain hmem | hmem := mem_fallbackBody hc hterminator
    · exact absurd hterminator (by simp [hname c hmem])
    · exact absurd hterminator (by simp [isLineTerminator_eq_false_of_isWord (hresult c hmem)])

variable {t first : Text} {body : List Text} {resolver : Resolver} {settings : Settings} {failure : React.Failure}

theorem newline_not_mem_first (hlines : Text.lines t = first :: body) : '\n' ∉ Text.trim first :=
  Text.not_mem_trim (Text.newline_not_mem_lines (hlines ▸ List.mem_cons_self))

/-- A document is called by the word of its signature, or else by its whole first line. -/
theorem documentName_cases (hlines : Text.lines t = first :: body) (hfirst : Text.trim first ≠ []) :
    ((Text.trim first).IsSignature ∧ ∀ c ∈ documentName (Document.ofText t), isWord c) ∨
      (¬ (Text.trim first).IsSignature ∧ documentName (Document.ofText t) = Text.trim first) := by
  have hname : documentName (Document.ofText t) = (Signature.read first 0).1.name := by
    rw [Document.ofText_of_lines hlines hfirst]
    rfl
  rw [hname, Signature.isSignature_iff (newline_not_mem_first hlines), Signature.read]
  cases hparts : Signature.parts? (Text.trim first) with
  | none => exact .inr ⟨by simp, rfl⟩
  | some parts => exact .inl ⟨rfl, (Signature.isWord_of_parts? hparts).2⟩

/-- Only a text with a signature line has fetches. -/
theorem trim_ne_nil_of_fetches (hlines : Text.lines t = first :: body) (hfetches : (Document.ofText t).fetches ≠ []) :
    Text.trim first ≠ [] := by
  intro hblank
  apply hfetches
  rw [Document.fetches, Document.contents, Document.nodes_of_blank_signature hlines hblank]
  rfl

theorem ofText_of_generate
    (hfailure : React.generate (Document.ofText t) resolver settings.options = .error failure)
    (hreported : isReported failure) :
    ofText t resolver settings = .ok ⟨fallback (documentName (Document.ofText t)) failure, true⟩ := by
  rw [ofText, ofDocument, run, hfailure]
  dsimp only
  rw [if_pos hreported]
  rfl

/-- A comment takes the place of a module only for a fetch without an address. -/
theorem exists_fetch_of_generate
    (hfailure : React.generate (Document.ofText t) resolver settings.options = .error failure)
    (hreported : isReported failure) :
    ∃ fetch ∈ (Document.ofText t).fetches, ofText t resolver settings =
      .ok ⟨fallback (documentName (Document.ofText t)) (.missingUrl fetch.result), true⟩ := by
  have hcomment := ofText_of_generate hfailure hreported
  obtain ⟨_, hmodule, _⟩ | ⟨before, fetch, after, hsplit, _, hfetch⟩ := ofText_cases t resolver settings
  · rw [hcomment] at hmodule
    cases hmodule
  obtain ⟨_, hmissing⟩ | ⟨_, _, _, herror⟩ := hfetch
  · exact ⟨fetch, by simp [hsplit], hmissing⟩
  · rw [hcomment] at herror
    cases herror

/-- The comment starts with slashes and ends with its only line feed. It is nothing but a comment exactly if the first
line is a signature or has no character inside that ends a line of code. -/
theorem fallback_isLineComment_iff (hlines : Text.lines t = first :: body)
    (hfailure : React.generate (Document.ofText t) resolver settings.options = .error failure)
    (hreported : isReported failure) :
    ∃ code, ofText t resolver settings = .ok ⟨code, true⟩ ∧ "//".toList <+: code ∧ code.getLast? = some '\n' ∧
      '\n' ∉ code.dropLast ∧
      (code.IsLineComment ↔
        (Text.trim first).IsSignature ∨ ∀ c ∈ Text.trim first, isLineTerminator c = false) := by
  obtain ⟨fetch, hfetch, hcode⟩ := exists_fetch_of_generate hfailure hreported
  have hresult := Document.isWord_result hfetch
  have hfirst := trim_ne_nil_of_fetches hlines (List.ne_nil_of_mem hfetch)
  have hnames := documentName_cases hlines hfirst
  have hfeed : '\n' ∉ fallbackBody (documentName (Document.ofText t)) fetch.result := by
    intro hmem
    obtain hname | hmem := mem_fallbackBody hmem rfl
    · obtain ⟨_, hword⟩ | ⟨_, hwhole⟩ := hnames
      · exact absurd (hword _ hname) (by decide)
      · exact newline_not_mem_first hlines (hwhole ▸ hname)
    · exact absurd (hresult _ hmem) (by decide)
  refine ⟨_, hcode, ?_, ?_, ?_, ?_⟩
  · rw [fallback_eq, List.append_assoc]
    exact List.prefix_append _ _
  · rw [fallback_eq]
    exact List.getLast?_concat
  · rw [fallback_eq, show "\n".toList = ['\n'] from rfl, List.dropLast_concat, List.mem_append, not_or]
    exact ⟨by decide, hfeed⟩
  · rw [isLineComment_fallback_iff hresult]
    obtain ⟨hsignature, hword⟩ | ⟨hnot, hwhole⟩ := hnames
    · exact iff_of_true (fun c hc => isLineTerminator_eq_false_of_isWord (hword c hc)) (.inl hsignature)
    · rw [hwhole, or_iff_right hnot]

/-- A document whose first line is a signature with a separator of lines inside, and whose fetch has no address. -/
def separatedParameter : Text := "Page(a:b\u2028c)\n:fetch x(null) from \" \" GET"

theorem fallback_isLineComment_iff_separated :
    React.generate (Document.ofText separatedParameter) Resolver.default Settings.default.options =
        .error (.missingUrl "x") ∧
      ∃ code, ofText separatedParameter Resolver.default Settings.default = .ok ⟨code, true⟩ ∧ code.IsLineComment := by
  have hlines : Text.lines separatedParameter =
      ["Page(a:b\u2028c)".toList, ":fetch x(null) from \" \" GET".toList] := by
    decide +kernel
  have hfirst : (Document.ofText separatedParameter).fetches.findSome? React.fetchFailure? =
      some (.missingUrl "x") := by
    decide +kernel
  have hfailure : React.generate (Document.ofText separatedParameter) Resolver.default Settings.default.options =
      .error (.missingUrl "x") := by
    rw [React.generate_ofText, Document.findSome?_contentFailure, hfirst]
  have hsignature : (Text.trim "Page(a:b\u2028c)".toList).IsSignature :=
    ⟨"Page", "a:b\u2028c", by decide, List.all_eq_true.mp (by decide), by decide +kernel⟩
  obtain ⟨code, hcode, -, -, -, hiff⟩ := fallback_isLineComment_iff hlines hfailure rfl
  exact ⟨hfailure, code, hcode, hiff.mpr (.inl hsignature)⟩

/-- A carriage return inside of a first line that is no signature ends the comment. -/
theorem fallback_ends_at_return :
    ∃ code, ofText "A\rB\n:fetch x(null) from \" \" GET" Resolver.default Settings.default = .ok ⟨code, true⟩ ∧
      code = "// Error: failed to generate A\rB: Fetch node for 'x' must have a URL\n".toList ∧
      ¬ code.IsLineComment := by
  have hfirst : (Document.ofText "A\rB\n:fetch x(null) from \" \" GET").fetches.findSome? React.fetchFailure? =
      some (.missingUrl "x") := by
    decide +kernel
  have hname : documentName (Document.ofText "A\rB\n:fetch x(null) from \" \" GET") = "A\rB".toList := by
    decide +kernel
  refine ⟨_, ofText_of_missingUrl hfirst, ?_, ?_⟩
  · rw [hname]
    decide +kernel
  · rw [hname, isLineComment_fallback_iff (List.all_eq_true.mp (by decide))]
    intro hplain
    exact absurd (hplain '\r' (by decide)) (by decide)

end Compilation

end ViewMarkup
