import ViewMarkup.Proofs.Condition.Grammar
import ViewMarkup.Proofs.Text.Scan
import ViewMarkup.Proofs.Text.Words

namespace ViewMarkup.Condition

/-- White space and the ends of lines. -/
def spaces : List Char :=
  ['\t', '\n', '\x0b', '\x0c', '\r', ' ', '\u00a0', '\u1680', '\u2000', '\u2001', '\u2002', '\u2003', '\u2004',
    '\u2005', '\u2006', '\u2007', '\u2008', '\u2009', '\u200a', '\u2028', '\u2029', '\u202f', '\u205f',
    '\u3000', '\ufeff']

/-- The characters of names: letters, digits, `_`, `$`, and all characters outside of ASCII that are no space. -/
def isNameChar (c : Char) : Bool :=
  c.isAlphanum || c == '_' || c == '$' || (128 ≤ c.toNat && !spaces.contains c)

/-- The token that starts with a character of no name, and the rest of its spelling. The spelling of markup, which
starts with a tag, is given. -/
def symbol? (markup? : Option Text) : Char → Option (Token × Text)
  | '!' => some (.not, [])
  | '&' => some (.and, ['&'])
  | '|' => some (.or, ['|'])
  | '?' => some (.query, [])
  | ':' => some (.colon, [])
  | '(' => some (.opening, [])
  | ')' => some (.closing, [])
  | '<' => markup?.map fun markup => (.markup, markup.tail)
  | _ => none

/-- The token at the start of a text, and the rest. A name goes on as long as it can. -/
def lexeme? (markup? : Option Text) : Text → Option (Token × Text)
  | [] => none
  | c :: t =>
    match symbol? markup? c with
    | some (token, spelling) => (Text.after? spelling t).map fun rest => (token, rest)
    | none =>
      if isNameChar c && !c.isDigit then some (.name (c :: t.takeWhile isNameChar), t.dropWhile isNameChar)
      else none

/-- A text and its tokens, with any spaces between them. -/
inductive Lexed (markup? : Option Text) : Text → List Token → Prop where
  | nil : Lexed markup? [] []
  | space {c : Char} {t : Text} {tokens : List Token} (hspace : c ∈ spaces) (hlexed : Lexed markup? t tokens) :
    Lexed markup? (c :: t) tokens
  | token {t rest : Text} {token : Token} {tokens : List Token} (hlexeme : lexeme? markup? t = some (token, rest))
    (hlexed : Lexed markup? rest tokens) : Lexed markup? t (token :: tokens)

/-- A text is read as a condition; markup can be a part of it only if it is given. -/
def Reads (markup? : Option Text) (t : Text) (e : Condition .conditional) : Prop :=
  Lexed markup? t e.tokens

variable {markup? : Option Text} {t u rest : Text} {token : Token} {tokens tokens' : List Token}

theorem symbol?_of_ne {c : Char} (hc : c ≠ '<') : symbol? markup? c = symbol? none c := by
  unfold symbol?
  split <;> try rfl
  exact absurd rfl hc

theorem symbol?_of_isNameChar {c : Char} (hc : isNameChar c) : symbol? markup? c = none := by
  unfold symbol?
  split <;> try cases hc
  rfl

/-- The two ways in which a token stands at the start of a text. -/
inductive Starts (markup? : Option Text) (rest : Text) : Text → Token → Prop where
  | symbol {c : Char} {spelling : Text} {token : Token} (hsymbol : symbol? markup? c = some (token, spelling)) :
    Starts markup? rest (c :: (spelling ++ rest)) token
  | name {c : Char} {word : Text} (hfirst : isNameChar c) (hdigit : c.isDigit = false)
    (hword : ∀ c ∈ word, isNameChar c) (hend : ∀ c ∈ rest.head?, isNameChar c = false) :
    Starts markup? rest (c :: (word ++ rest)) (.name (c :: word))

theorem lexeme?_eq_some_iff : lexeme? markup? t = some (token, rest) ↔ Starts markup? rest t token := by
  constructor
  · intro hlexeme
    cases t with
    | nil => cases hlexeme
    | cons c t =>
      rw [lexeme?] at hlexeme
      split at hlexeme
      · next token' spelling hsymbol =>
        obtain ⟨rest', hafter, heq⟩ := Option.map_eq_some_iff.mp hlexeme
        cases heq
        rw [Text.after?_eq_some_iff.mp hafter]
        exact .symbol hsymbol
      · split_ifs at hlexeme with hfirst
        rw [Bool.and_eq_true, Bool.not_eq_true'] at hfirst
        cases hlexeme
        have hend : ∀ c ∈ (t.dropWhile isNameChar).head?, isNameChar c = false := by
          intro c hc
          have hhead := List.head?_dropWhile_not isNameChar t
          rwa [hc] at hhead
        have hword : ∀ c ∈ t.takeWhile isNameChar, isNameChar c := fun _ => List.mem_takeWhile_imp
        have hstarts : Starts markup? _ _ _ := .name hfirst.1 hfirst.2 hword hend
        rwa [List.takeWhile_append_dropWhile] at hstarts
  · intro hstarts
    cases hstarts with
    | symbol hsymbol => simp [lexeme?, hsymbol, Text.after?_eq_some_iff.mpr]
    | name hfirst hdigit hword hend =>
      rw [lexeme?, symbol?_of_isNameChar hfirst, Text.takeWhile_append_of_head hword hend,
        Text.dropWhile_append_of_head hword hend]
      simp [hfirst, hdigit]

theorem lexeme?_space {c : Char} (hspace : c ∈ spaces) (t : Text) : lexeme? markup? (c :: t) = none := by
  have hspaces : spaces.all fun c => c != '<' && symbol? none c == none && !isNameChar c := by decide
  have hc := List.all_eq_true.mp hspaces c hspace
  simp only [Bool.and_eq_true, beq_iff_eq, Bool.not_eq_true', bne_iff_ne] at hc
  simp [lexeme?, symbol?_of_ne hc.1.1, hc]

theorem Lexed.unique (hlexed : Lexed markup? t tokens) (hlexed' : Lexed markup? t tokens') : tokens = tokens' := by
  induction hlexed generalizing tokens' with
  | nil =>
    cases hlexed' with
    | nil => rfl
    | token hlexeme _ => cases hlexeme
  | space hspace _ ih =>
    cases hlexed' with
    | space _ hlexed' => exact ih hlexed'
    | token hlexeme _ =>
      rw [lexeme?_space hspace] at hlexeme
      cases hlexeme
  | token hlexeme _ ih =>
    cases hlexed' with
    | nil => cases hlexeme
    | space hspace _ =>
      rw [lexeme?_space hspace] at hlexeme
      cases hlexeme
    | token hlexeme' hlexed' =>
      rw [hlexeme] at hlexeme'
      cases hlexeme'
      rw [ih hlexed']

/-- There is at most one way to read a text. -/
theorem Reads.unique {e e' : Condition .conditional} (hreads : Reads markup? t e) (hreads' : Reads markup? t e') :
    e = e' :=
  tokens_injective (Lexed.unique hreads hreads')

/-- A token is the same if what is written behind the text does not continue a name. -/
theorem lexeme?_append (hu : ∀ c ∈ u.head?, isNameChar c = false) (hlexeme : lexeme? markup? t = some (token, rest)) :
    lexeme? markup? (t ++ u) = some (token, rest ++ u) := by
  rw [lexeme?_eq_some_iff] at hlexeme ⊢
  cases hlexeme with
  | symbol hsymbol =>
    rw [List.cons_append, List.append_assoc]
    exact .symbol hsymbol
  | name hfirst hdigit hword hend =>
    rw [List.cons_append, List.append_assoc]
    refine .name hfirst hdigit hword ?_
    cases rest with
    | nil => exact hu
    | cons c rest => exact hend

theorem Lexed.append (hu : ∀ c ∈ u.head?, isNameChar c = false) (hlexed : Lexed markup? t tokens)
    (hlexed' : Lexed markup? u tokens') : Lexed markup? (t ++ u) (tokens ++ tokens') := by
  induction hlexed with
  | nil => exact hlexed'
  | space hspace _ ih => exact .space hspace ih
  | token hlexeme _ ih => exact .token (lexeme?_append hu hlexeme) ih

theorem Lexed.spaces {blanks : Text} (hblanks : ∀ c ∈ blanks, c ∈ spaces) (hlexed : Lexed markup? t tokens) :
    Lexed markup? (blanks ++ t) tokens := by
  induction blanks with
  | nil => exact hlexed
  | cons c blanks ih =>
    rw [List.forall_mem_cons] at hblanks
    exact .space hblanks.1 (ih hblanks.2)

/-- No operator is markup, and none has a brace. -/
theorem of_symbol?_none {c : Char} {spelling : Text} (hsymbol : symbol? none c = some (token, spelling)) :
    c ≠ '<' ∧ token ≠ .markup ∧ '\x7b' ∉ c :: spelling := by
  unfold symbol? at hsymbol
  split at hsymbol <;> cases hsymbol <;> decide

/-- Without markup no token is markup, and none has a brace. -/
theorem of_lexeme?_none (hlexeme : lexeme? none t = some (token, rest)) :
    token ≠ .markup ∧ ('\x7b' ∈ t → '\x7b' ∈ rest) := by
  cases lexeme?_eq_some_iff.mp hlexeme with
  | symbol hsymbol =>
    obtain ⟨-, hmarkup, hbrace⟩ := of_symbol?_none hsymbol
    refine ⟨hmarkup, fun hmem => ?_⟩
    rw [← List.cons_append] at hmem
    exact (List.mem_append.mp hmem).resolve_left hbrace
  | @name c word hfirst hdigit hword hend =>
    have hbrace : '\x7b' ∉ c :: word := by
      intro hmem
      obtain rfl | htail := List.mem_cons.mp hmem
      · cases hfirst
      · cases hword _ htail
    refine ⟨by rintro ⟨⟩, fun hmem => ?_⟩
    rw [← List.cons_append] at hmem
    exact (List.mem_append.mp hmem).resolve_left hbrace

theorem Lexed.markup_not_mem (hlexed : Lexed none t tokens) : .markup ∉ tokens := by
  induction hlexed with
  | nil => exact List.not_mem_nil
  | space _ _ ih => exact ih
  | token hlexeme _ ih => exact List.not_mem_cons_of_ne_of_not_mem (of_lexeme?_none hlexeme).1.symm ih

theorem Lexed.brace_not_mem (hlexed : Lexed none t tokens) : '\x7b' ∉ t := by
  induction hlexed with
  | nil => exact List.not_mem_nil
  | space hspace _ ih =>
    refine List.not_mem_cons_of_ne_of_not_mem ?_ ih
    rintro rfl
    exact absurd hspace (by decide)
  | token hlexeme _ ih => exact fun hmem => ih ((of_lexeme?_none hlexeme).2 hmem)

theorem lexeme?_some (markup : Text) (hlexeme : lexeme? none t = some (token, rest)) :
    lexeme? (some markup) t = some (token, rest) := by
  rw [lexeme?_eq_some_iff] at hlexeme ⊢
  cases hlexeme with
  | symbol hsymbol =>
    refine .symbol ?_
    rw [symbol?_of_ne (of_symbol?_none hsymbol).1, hsymbol]
  | name hfirst hdigit hword hend => exact .name hfirst hdigit hword hend

theorem Lexed.some (hlexed : Lexed none t tokens) (markup : Text) : Lexed (some markup) t tokens := by
  induction hlexed with
  | nil => exact .nil
  | space hspace _ ih => exact .space hspace ih
  | token hlexeme _ ih => exact .token (lexeme?_some markup hlexeme) ih

end ViewMarkup.Condition
