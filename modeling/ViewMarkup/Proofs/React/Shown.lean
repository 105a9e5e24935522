import ViewMarkup.Proofs.Text.Scan
import ViewMarkup.React.Literal

namespace ViewMarkup.React

/-- The characters that have a name between tags. -/
def entities : List (Text × Char) :=
  [("&lt;", '<'), ("&gt;", '>'), ("&amp;", '&'), ("&quot;", '"')]

/-- The entity at the start of a text: its character and the length of its name. -/
def entityAt? (t : Text) : Option (Char × Nat) :=
  entities.findSome? fun entity => if entity.1.isPrefixOf t then some (entity.2, entity.1.length) else none

/-- The characters that mean themselves inside a quoted script string. -/
def isQuotable (c : Char) : Bool :=
  c != '"' && c != '\\' && c != '\n'

/-- What the first piece of text between tags shows, and its length. A piece is a quoted string in braces, an entity
or a character. Braces and angle brackets show nothing by themselves. -/
def pieceAt? : Text → Option (Text × Nat)
  | [] => none
  | '\x7b' :: '"' :: rest =>
    let quoted := rest.takeWhile isQuotable
    match rest.drop quoted.length with
    | '"' :: '\x7d' :: _ => some (quoted, quoted.length + 4)
    | _ => none
  | c :: rest =>
    if c = '\x7b' ∨ c = '\x7d' ∨ c = '<' ∨ c = '>' then none
    else match entityAt? (c :: rest) with
      | some (named, width) => some ([named], width)
      | none => some ([c], 1)

/-- What the text between tags shows behind the given number of characters. -/
def shownFrom : Nat → Text → Option Text
  | _, [] => some []
  | skip + 1, _ :: rest => shownFrom skip rest
  | 0, c :: rest =>
    match pieceAt? (c :: rest) with
    | none => none
    | some (shown, width) => (shownFrom (width - 1) rest).map (shown ++ ·)

/-- What text between tags shows, if it can be read. -/
def shown? (t : Text) : Option Text :=
  shownFrom 0 t

/-- The text behind the given number of characters, with a character for every entity. -/
def resolveFrom : Nat → Text → Text
  | _, [] => []
  | skip + 1, _ :: rest => resolveFrom skip rest
  | 0, c :: rest =>
    match entityAt? (c :: rest) with
    | some (named, width) => named :: resolveFrom (width - 1) rest
    | none => c :: resolveFrom 0 rest

/-- The text with a character for every entity. -/
def resolve (t : Text) : Text :=
  resolveFrom 0 t

/-- A character that stands for itself between tags. -/
def IsPlain (c : Char) : Prop :=
  c ≠ '\x7b' ∧ c ≠ '\x7d' ∧ c ≠ '<' ∧ c ≠ '>'

section Entities

theorem entityAt?_eq_none_iff {t : Text} : entityAt? t = none ↔ ∀ entity ∈ entities, ¬ entity.1 <+: t := by
  simp [entityAt?, List.findSome?_eq_none_iff]

/-- The spelling of an entity is an ampersand and a name without special characters. -/
theorem exists_name {entity : Text × Char} (hentity : entity ∈ entities) :
    ∃ name, entity.1 = '&' :: name ∧ ∀ d ∈ name, IsPlain d ∧ d ≠ '&' := by
  have hname (name : Text)
      (hall : name.all fun d => d != '\x7b' && d != '\x7d' && d != '<' && d != '>' && d != '&') :
      ∀ d ∈ name, IsPlain d ∧ d ≠ '&' := by
    intro d hd
    simpa [IsPlain, and_assoc] using List.all_eq_true.mp hall d hd
  simp only [entities, List.mem_cons, List.not_mem_nil, or_false] at hentity
  obtain rfl | rfl | rfl | rfl := hentity
  · exact ⟨"lt;", rfl, hname _ rfl⟩
  · exact ⟨"gt;", rfl, hname _ rfl⟩
  · exact ⟨"amp;", rfl, hname _ rfl⟩
  · exact ⟨"quot;", rfl, hname _ rfl⟩

theorem entityAt?_append {entity : Text × Char} (hentity : entity ∈ entities) (rest : Text) :
    entityAt? (entity.1 ++ rest) = some (entity.2, entity.1.length) := by
  simp only [entities, List.mem_cons, List.not_mem_nil, or_false] at hentity
  obtain rfl | rfl | rfl | rfl := hentity <;> rfl

theorem exists_of_entityAt? {t : Text} {found : Char × Nat} (hfound : entityAt? t = some found) :
    ∃ entity ∈ entities, ∃ rest, t = entity.1 ++ rest ∧ found = (entity.2, entity.1.length) := by
  obtain ⟨entity, hentity, hsome⟩ := List.exists_of_findSome?_eq_some hfound
  split at hsome
  · rename_i hstarts
    obtain ⟨rest, hrest⟩ := List.isPrefixOf_iff_prefix.mp hstarts
    exact ⟨entity, hentity, rest, hrest.symm, (Option.some.inj hsome).symm⟩
  · cases hsome

end Entities

section Escaping

variable {t : Text} {c : Char}

theorem escapeChar_of_isPlain (hc : IsPlain c) : escapeChar c = [c] := by
  simp [escapeChar, hc.1, hc.2.1, hc.2.2.1, hc.2.2.2]

theorem special_of_not_isPlain (hc : ¬ IsPlain c) : c = '\x7b' ∨ c = '\x7d' ∨ c = '<' ∨ c = '>' := by
  simp only [IsPlain] at hc
  tauto

theorem escapeText_cons (c : Char) (t : Text) : escapeText (c :: t) = escapeChar c ++ escapeText t :=
  List.flatMap_cons

theorem escapeText_append (t rest : Text) : escapeText (t ++ rest) = escapeText t ++ escapeText rest :=
  List.flatMap_append

theorem escapeText_of_isPlain (ht : ∀ c ∈ t, IsPlain c) : escapeText t = t := by
  induction t with
  | nil => rfl
  | cons c t ih =>
    obtain ⟨hc, ht⟩ := List.forall_mem_cons.mp ht
    rw [escapeText_cons, escapeChar_of_isPlain hc, ih ht]
    rfl

/-- The escape of a special character starts with an opening brace or an ampersand. -/
theorem escapeChar_cases (c : Char) :
    IsPlain c ∨ ∃ rest, escapeChar c = '\x7b' :: rest ∨ escapeChar c = '&' :: rest := by
  unfold IsPlain escapeChar
  split_ifs with hopen hclose hless hgreater
  · exact .inr ⟨_, .inl rfl⟩
  · exact .inr ⟨_, .inl rfl⟩
  · exact .inr ⟨_, .inr rfl⟩
  · exact .inr ⟨_, .inr rfl⟩
  · exact .inl ⟨hopen, hclose, hless, hgreater⟩

/-- Escaping makes no name that was not there. -/
theorem prefix_of_prefix_escapeText {name : Text} (hname : ∀ d ∈ name, d ≠ '\x7b' ∧ d ≠ '&')
    (hstarts : name <+: escapeText t) : name <+: t := by
  induction name generalizing t with
  | nil => exact List.nil_prefix
  | cons d name ih =>
    obtain ⟨hd, hname⟩ := List.forall_mem_cons.mp hname
    cases t with
    | nil => exact hstarts
    | cons c t =>
      rw [escapeText_cons] at hstarts
      obtain hplain | ⟨rest, hescape | hescape⟩ := escapeChar_cases c
      · rw [escapeChar_of_isPlain hplain, List.singleton_append, List.cons_prefix_cons] at hstarts
        exact List.cons_prefix_cons.mpr ⟨hstarts.1, ih hname hstarts.2⟩
      · rw [hescape, List.cons_append, List.cons_prefix_cons] at hstarts
        exact absurd hstarts.1 hd.1
      · rw [hescape, List.cons_append, List.cons_prefix_cons] at hstarts
        exact absurd hstarts.1 hd.2

theorem entityAt?_cons_escapeText (hnone : entityAt? (c :: t) = none) : entityAt? (c :: escapeText t) = none := by
  rw [entityAt?_eq_none_iff] at hnone ⊢
  intro entity hentity hstarts
  apply hnone entity hentity
  obtain ⟨name, hname, hplain⟩ := exists_name hentity
  rw [hname, List.cons_prefix_cons] at hstarts ⊢
  exact ⟨hstarts.1, prefix_of_prefix_escapeText (fun d hd => ⟨(hplain d hd).1.1, (hplain d hd).2⟩) hstarts.2⟩

theorem shownFrom_eq_shown?_drop (skip : Nat) (t : Text) : shownFrom skip t = shown? (t.drop skip) := by
  induction t generalizing skip with
  | nil => cases skip <;> rfl
  | cons c t ih =>
    cases skip with
    | zero => rfl
    | succ skip => exact ih skip

/-- What a piece shows comes before what the rest shows. -/
theorem shown?_cons_append (piece : Text) {rest shown : Text}
    (hpiece : pieceAt? (c :: (piece ++ rest)) = some (shown, piece.length + 1)) :
    shown? (c :: (piece ++ rest)) = (shown? rest).map (shown ++ ·) := by
  rw [shown?, shownFrom, hpiece]
  simp [shownFrom_eq_shown?_drop]

theorem pieceAt?_of_isPlain (hc : IsPlain c) (t : Text) :
    pieceAt? (c :: t) = match entityAt? (c :: t) with
      | some (named, width) => some ([named], width)
      | none => some ([c], 1) := by
  obtain ⟨hopen, hclose, hless, hgreater⟩ := hc
  rw [pieceAt?]
  · simp [hopen, hclose, hless, hgreater]
  · rintro rest ⟨⟩
    exact absurd rfl hopen

/-- The escape of a special character shows the character. -/
theorem shown?_escapeChar (hc : ¬ IsPlain c) (t : Text) :
    shown? (escapeChar c ++ t) = (shown? t).map ([c] ++ ·) := by
  obtain rfl | rfl | rfl | rfl := special_of_not_isPlain hc
  · exact shown?_cons_append "\"\x7b\"\x7d" rfl
  · exact shown?_cons_append "\"\x7d\"\x7d" rfl
  · exact shown?_cons_append "lt;" rfl
  · exact shown?_cons_append "gt;" rfl

theorem shown?_cons_of_isPlain (hc : IsPlain c) (hentity : entityAt? (c :: t) = none) :
    shown? (c :: t) = (shown? t).map ([c] ++ ·) := by
  apply shown?_cons_append []
  rw [List.nil_append, pieceAt?_of_isPlain hc, hentity]
  rfl

/-- An entity shows its character. -/
theorem shown?_entity {entity : Text × Char} (hentity : entity ∈ entities) (t : Text) :
    shown? (entity.1 ++ t) = (shown? t).map ([entity.2] ++ ·) := by
  obtain ⟨name, hname, -⟩ := exists_name hentity
  have hfound := entityAt?_append hentity t
  rw [hname] at hfound ⊢
  apply shown?_cons_append name
  rw [pieceAt?_of_isPlain (by simp [IsPlain]), ← List.cons_append, hfound]
  rfl

/-- Escaped text shows the text with its entities resolved. -/
theorem shown?_escapeText_drop (skip : Nat) (t : Text) :
    shown? (escapeText (t.drop skip)) = some (resolveFrom skip t) := by
  induction t generalizing skip with
  | nil => cases skip <;> rfl
  | cons c t ih =>
    cases skip with
    | succ skip => exact ih skip
    | zero =>
      rw [List.drop_zero, resolveFrom]
      cases hfound : entityAt? (c :: t) with
      | none =>
        have hrest : shown? (escapeText t) = some (resolveFrom 0 t) := ih 0
        rw [escapeText_cons]
        by_cases hc : IsPlain c
        · rw [escapeChar_of_isPlain hc, List.singleton_append,
            shown?_cons_of_isPlain hc (entityAt?_cons_escapeText hfound), hrest]
          rfl
        · rw [shown?_escapeChar hc, hrest]
          rfl
      | some found =>
        obtain ⟨entity, hentity, rest, hsplit, rfl⟩ := exists_of_entityAt? hfound
        obtain ⟨name, hname, hplain⟩ := exists_name hentity
        have hspelling : escapeText entity.1 = entity.1 := by
          rw [hname]
          exact escapeText_of_isPlain (List.forall_mem_cons.mpr ⟨by simp [IsPlain], fun d hd => (hplain d hd).1⟩)
        -- The rest behind the entity is the rest behind its first character without the name.
        have hdrop : rest = t.drop (entity.1.length - 1) := by
          rw [hname] at hsplit ⊢
          obtain ⟨-, rfl⟩ := List.cons.inj hsplit
          simp
        rw [hsplit, escapeText_append, hspelling, shown?_entity hentity, hdrop, ih]
        rfl

end Escaping

section Resolving

theorem length_resolveFrom_le (skip : Nat) (t : Text) : (resolveFrom skip t).length ≤ t.length - skip := by
  induction t generalizing skip with
  | nil => simp [resolveFrom]
  | cons c t ih =>
    cases skip with
    | succ skip => simpa [resolveFrom] using ih skip
    | zero =>
      rw [resolveFrom]
      cases entityAt? (c :: t) with
      | none => simpa using ih 0
      | some found =>
        have hrest := ih (found.2 - 1)
        simp only [List.length_cons]
        omega

/-- A text is left as it is exactly if it spells no entity. -/
theorem resolve_eq_self_iff {t : Text} : resolve t = t ↔ ∀ entity ∈ entities, ¬ entity.1 <:+: t := by
  induction t with
  | nil => simp [resolve, resolveFrom, entities]
  | cons c t ih =>
    simp only [List.infix_cons_iff, not_or, forall_and, ← ih, ← entityAt?_eq_none_iff]
    rw [resolve, resolveFrom]
    cases hfound : entityAt? (c :: t) with
    | none => simp [resolve]
    | some found =>
      obtain ⟨entity, hentity, rest, hsplit, rfl⟩ := exists_of_entityAt? hfound
      have hlong : ∀ entity ∈ entities, 1 < entity.1.length := by decide
      refine iff_of_false (fun hsame => ?_) (by simp)
      -- An entity is longer than its character, and nothing behind it makes up for that.
      have hlength := congrArg List.length hsame
      have hsplit := congrArg List.length hsplit
      have hrest := length_resolveFrom_le (entity.1.length - 1) t
      have hentity := hlong entity hentity
      simp only [List.length_cons, List.length_append] at hlength hsplit
      omega

end Resolving

section Injectivity

/-- A character with the angle brackets spelled by their names. -/
def nameAngle (c : Char) : Text :=
  if c = '<' then "&lt;" else if c = '>' then "&gt;" else [c]

/-- A character with braces as quoted strings in braces. -/
def quoteBrace (c : Char) : Text :=
  if c = '\x7b' then "\x7b\"\x7b\"\x7d" else if c = '\x7d' then "\x7b\"\x7d\"\x7d" else [c]

theorem nameAngle_of_ne {c : Char} (hless : c ≠ '<') (hgreater : c ≠ '>') : nameAngle c = [c] := by
  simp [nameAngle, hless, hgreater]

theorem flatMap_nameAngle {t : Text} (hless : '<' ∉ t) (hgreater : '>' ∉ t) : t.flatMap nameAngle = t := by
  conv_rhs => rw [← List.flatMap_singleton' t]
  exact List.flatMap_congr fun c hc =>
    nameAngle_of_ne (ne_of_mem_of_not_mem hc hless) (ne_of_mem_of_not_mem hc hgreater)

/-- Angle brackets are named before braces are quoted. -/
theorem escapeChar_eq (c : Char) : escapeChar c = (nameAngle c).flatMap quoteBrace := by
  by_cases hc : IsPlain c
  · rw [escapeChar_of_isPlain hc, nameAngle_of_ne hc.2.2.1 hc.2.2.2]
    simp [quoteBrace, hc.1, hc.2.1]
  · obtain rfl | rfl | rfl | rfl := special_of_not_isPlain hc <;> rfl

theorem escapeText_eq (t : Text) : escapeText t = (t.flatMap nameAngle).flatMap quoteBrace := by
  rw [List.flatMap_assoc, escapeText]
  exact List.flatMap_congr fun c _ => escapeChar_eq c

/-- The first character of a text can be told from what is written for it. -/
theorem quoteBrace_append_inj {c d : Char} {t u : Text} (hsame : quoteBrace c ++ t = quoteBrace d ++ u) :
    c = d ∧ t = u := by
  unfold quoteBrace at hsame
  split_ifs at hsame <;> grind

theorem flatMap_quoteBrace_inj {t u : Text} (hsame : t.flatMap quoteBrace = u.flatMap quoteBrace) : t = u := by
  have hne (c : Char) (t : Text) : quoteBrace c ++ t ≠ [] := by
    unfold quoteBrace
    split_ifs <;> simp
  induction t generalizing u with
  | nil =>
    cases u with
    | nil => rfl
    | cons d u => exact absurd hsame.symm (hne d _)
  | cons c t ih =>
    cases u with
    | nil => exact absurd hsame (hne c _)
    | cons d u =>
      obtain ⟨rfl, hrest⟩ := quoteBrace_append_inj hsame
      rw [ih hrest]

theorem escapeText_eq_iff {t u : Text} :
    escapeText t = escapeText u ↔ t.flatMap nameAngle = u.flatMap nameAngle := by
  rw [escapeText_eq, escapeText_eq]
  exact ⟨flatMap_quoteBrace_inj, congrArg _⟩

/-- The two ways to write an angle bracket, each with the other one. -/
def angleSpellings : List (Text × Text) :=
  [("<", "&lt;"), ("&lt;", "<"), (">", "&gt;"), ("&gt;", ">")]

/-- No other text is escaped alike exactly if there are no angle brackets, in either spelling. -/
theorem escape_unique_iff {t : Text} :
    (∀ u, escapeText u = escapeText t → u = t) ↔ ∀ spelling ∈ angleSpellings, ¬ spelling.1 <:+: t := by
  constructor
  · rintro hunique spelling hspelling ⟨before, after, rfl⟩
    have halike : ∀ spelling ∈ angleSpellings,
        escapeText spelling.2 = escapeText spelling.1 ∧ spelling.2 ≠ spelling.1 := by decide
    obtain ⟨hescape, hne⟩ := halike spelling hspelling
    have hsame := hunique (before ++ spelling.2 ++ after) (by simp only [escapeText_append, hescape])
    simp only [List.append_cancel_left_eq, List.append_cancel_right_eq] at hsame
    exact hne hsame
  · intro hnone u hescape
    have hbare (c : Char) (hspelling : ([c], nameAngle c) ∈ angleSpellings) : c ∉ t :=
      fun hc => hnone _ hspelling ((List.singleton_infix_iff c t).mpr hc)
    have htext : t.flatMap nameAngle = t := flatMap_nameAngle (hbare '<' (by decide)) (hbare '>' (by decide))
    rw [escapeText_eq_iff, htext] at hescape
    have hnamed (c : Char) (hspelling : (nameAngle c, [c]) ∈ angleSpellings) : c ∉ u :=
      fun hc => hnone _ hspelling (hescape ▸ List.infix_flatMap_of_mem hc nameAngle)
    rwa [flatMap_nameAngle (hnamed '<' (by decide)) (hnamed '>' (by decide))] at hescape

end Injectivity

/-- What is written between tags can always be read again, and shows the text with its entities resolved. A text is
shown as it is written exactly if it spells none of them, and no other text is escaped alike exactly if it has no
angle brackets, neither bare nor by name. -/
theorem shown_as_written_iff (t : Text) :
    shown? (escapeText t) = some (resolve t) ∧
      (shown? (escapeText t) = some t ↔ ∀ entity ∈ entities, ¬ entity.1 <:+: t) ∧
      ((∀ u, escapeText u = escapeText t → u = t) ↔ ∀ spelling ∈ angleSpellings, ¬ spelling.1 <:+: t) := by
  have hshown : shown? (escapeText t) = some (resolve t) := shown?_escapeText_drop 0 t
  refine ⟨hshown, ?_, escape_unique_iff⟩
  rw [hshown, Option.some.injEq, resolve_eq_self_iff]

/-- The name of a bracket is shown as the bracket, and the bracket is escaped to its name. -/
theorem name_shown_as_bracket :
    shown? (escapeText "&lt;") = some ['<'] ∧ escapeText "&lt;" = escapeText ['<'] := by
  decide

end ViewMarkup.React
