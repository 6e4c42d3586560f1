import Lisp.Eval.SpecialForm

/-! Evaluation with a budget of nested evaluations. To run out of budget is an error of
its own and never passes for a value. -/

namespace Lisp

variable {F : Type}

/-- Evaluate an expression with at most `budget` evaluations nested in each other. A
special form is run; every other expression is its own value. -/
def evaluateWithin (registry : Registry F) : (budget : Nat) → Evaluator F
  | 0, _, _ => .fail .depthExceeded
  | budget + 1, e, env =>
    match registry.dispatch? e with
    | some (form, operands) => form.run (evaluateWithin registry budget) e operands env
    | none =>
      match e with
      | .host value => .fail (.notExpression value)
      | e => pure (e, env)

end Lisp
