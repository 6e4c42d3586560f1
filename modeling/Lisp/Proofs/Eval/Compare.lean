import Lisp.Proofs.Eval.Effect

/-! Two evaluations side by side. What the basic forms do with the evaluations nested in them is to
go on after them, so a relation between the nested ones carries over to the whole. -/

namespace Lisp

variable {F : Type}

/-- A relation between the outcomes of two evaluations that stays if both go on in related ways. -/
structure Outcome.IsCompatible
    (Related : Outcome F (Evaluated F) → Outcome F (Evaluated F) → Prop) : Prop where
  refl (x : Outcome F (Evaluated F)) : Related x x
  andThen {x x' : Outcome F (Evaluated F)} {next next' : Evaluated F → Outcome F (Evaluated F)}
    (hFirst : Related x x') (hNext : ∀ done, Related (next done) (next' done)) :
    Related (x.andThen next) (x'.andThen next')

variable {Related : Outcome F (Evaluated F) → Outcome F (Evaluated F) → Prop}
  {registry registry' : Registry F}

theorem SpecialForm.IsBasic.run_related (hRelated : Outcome.IsCompatible Related)
    {form : SpecialForm F} (hForm : form.IsBasic) {eval eval' : Evaluator F}
    {operands : List (Expr F)} (hArity : operands.length = form.arity)
    (hEval : ∀ operand ∈ operands, ∀ env, Related (eval operand env) (eval' operand env))
    (whole : Expr F) (env : Environment F) :
    Related (form.run eval whole operands env) (form.run eval' whole operands env) := by
  cases hForm with
  | conditional =>
      obtain ⟨condition, consequent, alternative, rfl⟩ := List.length_eq_three.1 hArity
      have hCondition := hEval condition (by simp) env
      have hConsequent := hEval consequent (by simp) env
      have hAlternative := hEval alternative (by simp) env
      apply hRelated.andThen hCondition
      rintro ⟨value, left⟩
      cases value with
      | bool choice =>
          cases choice with
          | true => exact hConsequent
          | false => exact hAlternative
      | _ => exact hRelated.refl _
  | binding =>
      obtain ⟨target, operand, rfl⟩ := List.length_eq_two.1 hArity
      have hOperand := hEval operand (by simp) env
      exact hRelated.andThen hOperand fun done => hRelated.refl _
  | recording =>
      obtain ⟨tag, rfl⟩ := List.length_eq_one_iff.1 hArity
      exact hRelated.refl _

/-- One step of the comparison, for registries that take the expression for the same form and for
budgets with which the evaluations of its operands are related. -/
theorem evaluateWithin_succ_related (hRelated : Outcome.IsCompatible Related)
    (hBasic : registry.IsBasic) {e : Expr F} {budget budget' : Nat}
    (hDispatch : registry'.dispatch? e = registry.dispatch? e)
    (hOperands : ∀ name operands, e = .form name operands → ∀ operand ∈ operands, ∀ env,
      Related (evaluateWithin registry budget operand env)
        (evaluateWithin registry' budget' operand env))
    (env : Environment F) :
    Related (evaluateWithin registry (budget + 1) e env)
      (evaluateWithin registry' (budget' + 1) e env) := by
  unfold evaluateWithin
  rw [hDispatch]
  cases hForm : registry.dispatch? e with
  | none => exact hRelated.refl _
  | some found =>
      obtain ⟨form, operands⟩ := found
      obtain ⟨name, hName, hArity, hList⟩ := Registry.dispatch?_eq_some_iff.1 hForm
      exact (hBasic name form hName).run_related hRelated hArity (hOperands name operands hList)
        e env

end Lisp
