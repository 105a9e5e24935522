import ViewMarkup.Proofs.Condition.Lexemes

namespace ViewMarkup.Condition

variable {level : Level}

/-- What a condition comes to: a truth value, or the markup. -/
inductive Outcome where
  | truth (holds : Bool)
  | markup
  deriving DecidableEq, Repr

def Outcome.isTruthy : Outcome → Bool
  | truth holds => holds
  | markup => true

/-- The first operand if it decides, and otherwise the second one. -/
def Connective.decide : Connective → Outcome → Outcome → Outcome
  | and, a, b => if a.isTruthy then b else a
  | or, a, b => if a.isTruthy then a else b

/-- The value of a condition if the names have these truth values. -/
def value (truth : Text → Bool) : {level : Level} → Condition level → Outcome
  | _, .name t => .truth (truth t)
  | _, .markup => .markup
  | _, .group inner => inner.value truth
  | _, .not operand => .truth !(operand.value truth).isTruthy
  | _, .one operand => operand.value truth
  | _, @more op front operand => op.decide (front.value truth) (operand.value truth)
  | _, .plain inner => inner.value truth
  | _, .choose test yes no => if (test.value truth).isTruthy then yes.value truth else no.value truth

/-- The condition holds. -/
def Holds (truth : Text → Bool) (e : Condition level) : Prop :=
  (e.value truth).isTruthy

theorem Connective.decide_ne_markup (op : Connective) {a b : Outcome} (ha : a ≠ .markup) (hb : b ≠ .markup) :
    op.decide a b ≠ .markup := by
  cases op <;> rw [Connective.decide] <;> split <;> assumption

/-- A condition without markup comes to a truth value. -/
theorem value_ne_markup (truth : Text → Bool) {e : Condition level} (hmarkup : .markup ∉ e.tokens) :
    e.value truth ≠ .markup := by
  induction e with
  | name | not => rintro ⟨⟩
  | markup => exact absurd List.mem_cons_self hmarkup
  | group inner ih =>
    simp only [tokens, List.mem_cons, List.mem_append, not_or] at hmarkup
    exact ih hmarkup.2.1
  | one operand ih => exact ih hmarkup
  | @more op front operand ihFront ihOperand =>
    simp only [tokens, List.mem_cons, List.mem_append, not_or] at hmarkup
    exact op.decide_ne_markup (ihFront hmarkup.1) (ihOperand hmarkup.2.2)
  | plain inner ih => exact ih hmarkup
  | choose test yes no ihTest ihYes ihNo =>
    simp only [tokens, List.mem_cons, List.mem_append, not_or] at hmarkup
    rw [value]
    split
    · exact ihYes hmarkup.2.2.1
    · exact ihNo hmarkup.2.2.2.2

/-- Markup in parentheses. -/
def shown : Condition .unary :=
  .group (.plain (.one (.one .markup)))

/-- Markup behind `&&` belongs to the last operand of `||`. -/
def guardedChain : Condition (.chain .or) → Condition (.chain .or)
  | .one operand => .one (@more .and operand shown)
  | .more front operand => .more front (@more .and operand shown)

/-- Markup behind `&&` belongs to the last branch of `?:`. -/
def guarded : Condition .conditional → Condition .conditional
  | .plain inner => .plain inner.guardedChain
  | .choose test yes no => .choose test yes no.guarded

/-- The condition is decided before its last operand is reached: an operand of `||` in front of it holds, or a test of
`?:` does. -/
def Settled (truth : Text → Bool) : Condition .conditional → Prop
  | .plain (.one _) => False
  | .plain (.more front _) => front.Holds truth
  | .choose test _ no => test.Holds truth ∨ no.Settled truth

theorem tokens_guardedChain (e : Condition (.chain .or)) :
    e.guardedChain.tokens = e.tokens ++ [.and, .opening, .markup, .closing] := by
  cases e with
  | one operand => simp [guardedChain, shown, tokens, Connective.token]
  | more front operand => simp [guardedChain, shown, tokens, Connective.token]

theorem tokens_guarded : (e : Condition .conditional) →
    e.guarded.tokens = e.tokens ++ [.and, .opening, .markup, .closing]
  | .plain inner => by rw [guarded, tokens, tokens, tokens_guardedChain]
  | .choose test yes no => by simp [guarded, tokens, tokens_guarded no]

theorem value_more_shown (truth : Text → Bool) {e : Condition (.chain .and)} (hmarkup : .markup ∉ e.tokens) :
    (@more .and e shown).value truth = .markup ↔ e.Holds truth := by
  have hvalue := e.value_ne_markup truth hmarkup
  rw [value, Connective.decide, Holds]
  split
  · simp [shown, value, *]
  · simp [*]

theorem value_guardedChain_iff (truth : Text → Bool) {e : Condition (.chain .or)} (hmarkup : .markup ∉ e.tokens) :
    e.guardedChain.value truth = .markup ↔ e.Holds truth ∧ ¬ (plain e).Settled truth := by
  cases e with
  | one operand =>
    rw [guardedChain, value, value_more_shown truth hmarkup, Settled, not_false_eq_true, and_true]
    rfl
  | more front operand =>
    simp only [tokens, List.mem_cons, List.mem_append, not_or] at hmarkup
    have hfront := front.value_ne_markup truth hmarkup.1
    rw [guardedChain, value, Connective.decide, Settled]
    by_cases hholds : (front.value truth).isTruthy
    · simp [Holds, hholds, hfront]
    · rw [if_neg hholds, value_more_shown truth hmarkup.2.2]
      simp [Holds, hholds, value, Connective.decide]

/-- The markup is shown if the condition holds and is not decided before its last operand. -/
theorem value_guarded_iff (truth : Text → Bool) : (e : Condition .conditional) → .markup ∉ e.tokens →
    (e.guarded.value truth = .markup ↔ e.Holds truth ∧ ¬ e.Settled truth)
  | .plain inner, hmarkup => by
    rw [guarded, value, value_guardedChain_iff truth hmarkup]
    rfl
  | .choose test yes no, hmarkup => by
    simp only [tokens, List.mem_cons, List.mem_append, not_or] at hmarkup
    have hyes := yes.value_ne_markup truth hmarkup.2.2.1
    have hno := value_guarded_iff truth no hmarkup.2.2.2.2
    rw [guarded, value, Settled]
    by_cases hholds : (test.value truth).isTruthy
    · simp [Holds, hholds, hyes]
    · simp [Holds, hholds, hno, value]

end ViewMarkup.Condition
