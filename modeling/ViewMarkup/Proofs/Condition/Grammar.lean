import ViewMarkup.Text.Basic

namespace ViewMarkup

namespace Condition

/-- The smallest parts of a condition. Markup counts as one of them. -/
inductive Token where
  | name (t : Text)
  | markup
  | not
  | and
  | or
  | query
  | colon
  | opening
  | closing
  deriving DecidableEq, Repr

/-- The operators that chains of operands are made of. -/
inductive Connective where
  | and
  | or

/-- How tightly the outermost operator binds, from the tightest on. -/
inductive Level where
  | unary
  | chain (op : Connective)
  | conditional

namespace Connective

def token : Connective → Token
  | and => .and
  | or => .or

/-- The level of the operands. It is reducible so that the operands of `||` are seen to be chains of `&&`. -/
@[reducible] def operand : Connective → Level
  | and => .unary
  | or => .chain .and

end Connective

/-- The tokens that join an expression of a level to what follows it. -/
def Level.joins : Level → List Token
  | unary => []
  | chain .and => [.and]
  | chain .or => [.and, .or]
  | conditional => [.and, .or, .query]

end Condition

open Condition

/-- A condition of a level: the level says which operators may stand outside of parentheses. Chains are read from the
left, and choices from the right. -/
inductive Condition : Level → Type where
  | name (t : Text) : Condition .unary
  | markup : Condition .unary
  | group (inner : Condition .conditional) : Condition .unary
  | not (operand : Condition .unary) : Condition .unary
  | one {op : Connective} (operand : Condition op.operand) : Condition (.chain op)
  | more {op : Connective} (front : Condition (.chain op)) (operand : Condition op.operand) : Condition (.chain op)
  | plain (inner : Condition (.chain .or)) : Condition .conditional
  | choose (test : Condition (.chain .or)) (yes no : Condition .conditional) : Condition .conditional

namespace Condition

def tokens : {level : Level} → Condition level → List Token
  | _, .name t => [.name t]
  | _, .markup => [.markup]
  | _, .group inner => .opening :: (inner.tokens ++ [.closing])
  | _, .not operand => .not :: operand.tokens
  | _, .one operand => operand.tokens
  | _, @more op front operand => front.tokens ++ op.token :: operand.tokens
  | _, .plain inner => inner.tokens
  | _, .choose test yes no => test.tokens ++ .query :: (yes.tokens ++ .colon :: no.tokens)

theorem tokens_ne_nil {level : Level} (e : Condition level) : e.tokens ≠ [] := by
  induction e with
  | name | markup | group | not => exact List.cons_ne_nil _ _
  | one operand ih => exact ih
  | more front operand ih _ => exact List.append_ne_nil_of_left_ne_nil ih _
  | plain inner ih => exact ih
  | choose test yes no ih _ _ => exact List.append_ne_nil_of_left_ne_nil ih _

section Chain

variable {op : Connective}

/-- The first operand of a chain. -/
def first : Condition (.chain op) → Condition op.operand
  | .one operand => operand
  | .more front _ => front.first

/-- The operands of a chain behind the first one. -/
def others : Condition (.chain op) → List (Condition op.operand)
  | .one _ => []
  | .more front operand => front.others ++ [operand]

/-- The tokens of operands, each behind the operator. -/
def joined (operands : List (Condition op.operand)) : List Token :=
  operands.flatMap fun operand => op.token :: operand.tokens

theorem tokens_eq_joined : (e : Condition (.chain op)) → e.tokens = e.first.tokens ++ joined e.others
  | .one operand => by simp [tokens, first, others, joined]
  | .more front operand => by
    simp [tokens, first, others, joined, tokens_eq_joined front]

/-- A chain is determined by its operands. -/
theorem foldl_more_others : (e : Condition (.chain op)) → e.others.foldl .more (.one e.first) = e
  | .one operand => by
    rw [first, others, List.foldl_nil]
  | .more front operand => by
    rw [first, others, List.foldl_append, foldl_more_others front, List.foldl_cons, List.foldl_nil]

theorem sizeOf_first_lt : (e : Condition (.chain op)) → sizeOf e.first < sizeOf e
  | .one operand => by
    simp only [first, one.sizeOf_spec]
    omega
  | .more front operand => by
    have hfront := sizeOf_first_lt front
    simp only [first, more.sizeOf_spec]
    omega

theorem sizeOf_lt_of_mem_others : (e : Condition (.chain op)) → ∀ operand ∈ e.others, sizeOf operand < sizeOf e
  | .one _ => by simp [others]
  | .more front last => by
    intro operand hmem
    rw [others] at hmem
    simp only [more.sizeOf_spec]
    obtain hfront | hlast := List.mem_append.mp hmem
    · have hlt := sizeOf_lt_of_mem_others front operand hfront
      omega
    · rw [List.mem_singleton.mp hlast]
      omega

end Chain

variable {level : Level}

/-- An expression of the level ends here. -/
def Stops (level : Level) (rest : List Token) : Prop :=
  ∀ token ∈ rest.head?, token ∉ level.joins

/-- No other expression of the level stands where the expression stands. -/
def Unique (e : Condition level) : Prop :=
  ∀ (e' : Condition level) (rest rest' : List Token), Stops level rest → Stops level rest' →
    e.tokens ++ rest = e'.tokens ++ rest' → e = e' ∧ rest = rest'

theorem unique_name (t : Text) : Unique (.name t) := by
  intro e' rest rest' _ _ heq
  cases e' <;> simp_all [tokens]

theorem unique_markup : Unique .markup := by
  intro e' rest rest' _ _ heq
  cases e' <;> simp_all [tokens]

theorem unique_not {operand : Condition .unary} (hoperand : Unique operand) : Unique (.not operand) := by
  intro e' rest rest' hstops hstops' heq
  cases e' with
  | not operand' =>
    rw [tokens, tokens, List.cons_append, List.cons_append, List.cons.injEq] at heq
    obtain ⟨rfl, rfl⟩ := hoperand operand' rest rest' hstops hstops' heq.2
    exact ⟨rfl, rfl⟩
  | name _ | markup | group _ => simp [tokens] at heq

/-- A group ends with its parenthesis. -/
theorem unique_group {inner : Condition .conditional} (hinner : Unique inner) : Unique (.group inner) := by
  have hclosing (rest : List Token) : Stops .conditional (.closing :: rest) := by simp [Stops, Level.joins]
  intro e' rest rest' hstops hstops' heq
  cases e' with
  | group inner' =>
    simp only [tokens, List.cons_append, List.append_assoc, List.nil_append, List.cons.injEq, true_and] at heq
    obtain ⟨rfl, hrest⟩ := hinner inner' _ _ (hclosing rest) (hclosing rest') heq
    exact ⟨rfl, List.tail_eq_of_cons_eq hrest⟩
  | name _ | markup | not _ => simp [tokens] at heq

section Chain

variable {op : Connective} {rest rest' : List Token}

theorem Stops.operand (hstops : Stops (.chain op) rest) : Stops op.operand rest := by
  intro token hmem hjoins
  refine hstops token hmem ?_
  cases op with
  | and => cases hjoins
  | or => exact List.mem_cons.mpr (.inl (List.mem_singleton.mp hjoins))

theorem stops_operand_token (rest : List Token) : Stops op.operand (op.token :: rest) := by
  cases op <;> simp [Stops, Connective.token, Level.joins]

theorem not_stops_token (rest : List Token) : ¬ Stops (.chain op) (op.token :: rest) := by
  cases op <;> simp [Stops, Connective.token, Level.joins]

/-- An operand ends where the next one is joined to it, or where the chain ends. -/
theorem stops_joined (hstops : Stops (.chain op) rest) (operands : List (Condition op.operand)) :
    Stops op.operand (joined operands ++ rest) := by
  cases operands with
  | nil => exact hstops.operand
  | cons operand operands => exact stops_operand_token _

/-- Operands behind each other are told apart one by one, and both chains end at the same place. -/
theorem joined_unique {operands operands' : List (Condition op.operand)} (hunique : ∀ e ∈ operands, Unique e)
    (hstops : Stops (.chain op) rest) (hstops' : Stops (.chain op) rest')
    (heq : joined operands ++ rest = joined operands' ++ rest') : operands = operands' ∧ rest = rest' := by
  induction operands generalizing operands' with
  | nil =>
    cases operands' with
    | nil => exact ⟨rfl, heq⟩
    | cons operand' operands' =>
      have hrest : rest = joined (operand' :: operands') ++ rest' := heq
      rw [hrest] at hstops
      exact absurd hstops (not_stops_token _)
  | cons operand operands ih =>
    cases operands' with
    | nil =>
      have hrest : joined (operand :: operands) ++ rest = rest' := heq
      rw [← hrest] at hstops'
      exact absurd hstops' (not_stops_token _)
    | cons operand' operands' =>
      rw [List.forall_mem_cons] at hunique
      simp only [joined, List.flatMap_cons, List.cons_append, List.append_assoc, List.cons.injEq, true_and] at heq
      -- the first operand ends where the next one is joined to it
      obtain ⟨rfl, hjoined⟩ :=
        hunique.1 operand' _ _ (stops_joined hstops operands) (stops_joined hstops' operands') heq
      obtain ⟨rfl, rfl⟩ := ih hunique.2 hjoined
      exact ⟨rfl, rfl⟩

/-- A chain is read from the left, so the operands are compared and not the chains in front of the last one. -/
theorem unique_chain {e : Condition (.chain op)} (hfirst : Unique e.first) (hothers : ∀ e' ∈ e.others, Unique e') :
    Unique e := by
  intro e' rest rest' hstops hstops' heq
  rw [tokens_eq_joined, tokens_eq_joined, List.append_assoc, List.append_assoc] at heq
  obtain ⟨heqFirst, hjoined⟩ := hfirst e'.first _ _ (stops_joined hstops _) (stops_joined hstops' _) heq
  obtain ⟨heqOthers, hrest⟩ := joined_unique hothers hstops hstops' hjoined
  refine ⟨?_, hrest⟩
  rw [← foldl_more_others e, ← foldl_more_others e', heqFirst, heqOthers]

end Chain

theorem Stops.test {rest : List Token} (hstops : Stops .conditional rest) : Stops (.chain .or) rest := by
  intro token hmem hjoins
  refine hstops token hmem ?_
  simp only [Level.joins, List.mem_cons, List.not_mem_nil, or_false] at hjoins ⊢
  exact hjoins.imp_right .inl

theorem stops_query (rest : List Token) : Stops (.chain .or) (.query :: rest) := by
  simp [Stops, Level.joins]

theorem not_stops_query (rest : List Token) : ¬ Stops .conditional (.query :: rest) := by
  simp [Stops, Level.joins]

theorem unique_plain {inner : Condition (.chain .or)} (hinner : Unique inner) : Unique (.plain inner) := by
  intro e' rest rest' hstops hstops' heq
  cases e' with
  | plain inner' =>
    obtain ⟨rfl, hrest⟩ := hinner inner' rest rest' hstops.test hstops'.test heq
    exact ⟨rfl, hrest⟩
  | choose test yes no =>
    simp only [tokens, List.append_assoc, List.cons_append] at heq
    obtain ⟨-, rfl⟩ := hinner test rest _ hstops.test (stops_query _) heq
    exact absurd hstops (not_stops_query _)

theorem unique_choose {test : Condition (.chain .or)} {yes no : Condition .conditional} (htest : Unique test)
    (hyes : Unique yes) (hno : Unique no) : Unique (.choose test yes no) := by
  have hcolon (rest : List Token) : Stops .conditional (.colon :: rest) := by simp [Stops, Level.joins]
  intro e' rest rest' hstops hstops' heq
  cases e' with
  | plain inner =>
    simp only [tokens, List.append_assoc, List.cons_append] at heq
    obtain ⟨-, rfl⟩ := htest inner _ rest' (stops_query _) hstops'.test heq
    exact absurd hstops' (not_stops_query _)
  | choose test' yes' no' =>
    simp only [tokens, List.append_assoc, List.cons_append] at heq
    obtain ⟨rfl, hbranches⟩ := htest test' _ _ (stops_query _) (stops_query _) heq
    obtain ⟨rfl, hlast⟩ := hyes yes' _ _ (hcolon _) (hcolon _) (List.tail_eq_of_cons_eq hbranches)
    obtain ⟨rfl, hrest⟩ := hno no' rest rest' hstops hstops' (List.tail_eq_of_cons_eq hlast)
    exact ⟨rfl, hrest⟩

/-- The level and the tokens of a condition determine it, also in front of tokens that end it. -/
theorem unique : {level : Level} → (e : Condition level) → Unique e
  | .unary, .name t => unique_name t
  | .unary, .markup => unique_markup
  | .unary, .group inner => unique_group inner.unique
  | .unary, .not operand => unique_not operand.unique
  | .chain _, e =>
    have := sizeOf_first_lt e
    unique_chain e.first.unique fun operand hmem =>
      have := sizeOf_lt_of_mem_others e operand hmem
      operand.unique
  | .conditional, .plain inner => unique_plain inner.unique
  | .conditional, .choose test yes no => unique_choose test.unique yes.unique no.unique
termination_by _ e => sizeOf e

/-- The tokens of a condition determine it. -/
theorem tokens_injective {e e' : Condition level} (heq : e.tokens = e'.tokens) : e = e' := by
  have hend : Stops level [] := by simp [Stops]
  exact (e.unique e' [] [] hend hend (by rw [heq])).1

end Condition

end ViewMarkup
