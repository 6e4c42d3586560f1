import Lisp.Proofs.Eval.Uniform
import Lisp.Proofs.Eval.Part

/-! Values of the language are normal forms: parts of what was evaluated that are no conditionals
themselves, so that evaluating them once more changes nothing. Conditionals inside of them are data
and stay. -/

namespace Lisp

variable {F : Type}

/-- A value that is got to without recording anything is data. Only a tag is a value that nobody
has looked at. -/
theorem HasEffect.isData {registry : Registry F} {e value : Expr F} {depth : Nat}
    {effect : Effect F} {bindings : List (Text × Expr F)}
    (hEffect : HasEffect registry e depth effect) (hRecorded : effect.recorded = [])
    (hResult : effect.result = .ok (value, bindings)) :
    registry.dispatch? value = none ∧ ∀ host, value ≠ .host host := by
  induction hEffect generalizing bindings with
  | data hData hExpr =>
      cases hResult
      exact ⟨hData, hExpr⟩
  | recording hName tag => cases hRecorded
  | binding hName hOperand ih =>
      cases hResult
      exact ih hRecorded rfl
  | conditional hName hCondition hBranch ihCondition ihBranch =>
      exact ihBranch (List.append_eq_nil_iff.1 hRecorded).2 hResult
  | _ => cases hResult

theorem Registry.dispatch?_builtin_conditional (condition consequent alternative : Expr F) :
    builtin.dispatch? (.conditional condition consequent alternative) =
      some (.conditional, [condition, consequent, alternative]) :=
  dispatch?_eq_some_iff.2 ⟨['i', 'f'], by rw [get?_builtin, if_pos rfl], rfl, rfl⟩

/-- Evaluation with the form of the language leads to a normal form, if it leads to a value: a part
of the expression that is no conditional and has itself as its value in every environment. It
leaves the environment as it is. This does not depend on the budgets. -/
theorem evaluateWithin_builtin_normal {budget : Nat} {e value : Expr F} {env left : Environment F}
    {recorded : List (Expr F)}
    (hEval : evaluateWithin .builtin budget e env = ⟨recorded, .ok (value, left)⟩) :
    recorded = [] ∧ left = env ∧ value.IsPart e ∧
      (∀ condition consequent alternative,
        value ≠ .conditional condition consequent alternative) ∧
      ∀ budget' env', 0 < budget' →
        evaluateWithin .builtin budget' value env' = ⟨[], .ok (value, env')⟩ := by
  obtain ⟨depth, bindings, hEffect, -, -⟩ :=
    exists_hasEffect_of_eq_ok Registry.isBasic_builtin hEval
  have hSelects := selectsPart_evaluateWithin budget e env
  rw [hEval] at hSelects
  cases hSelects with
  | value hPart =>
      obtain ⟨hData, hExpr⟩ := hEffect.isData rfl rfl
      refine ⟨rfl, rfl, hPart, ?_, fun budget' env' hBudget => ?_⟩
      · rintro condition consequent alternative rfl
        rw [Registry.dispatch?_builtin_conditional] at hData
        cases hData
      · obtain ⟨spare, rfl⟩ := Nat.exists_eq_add_of_le' hBudget
        exact evaluateWithin_of_dispatch?_eq_none hData hExpr spare env'

/-- A list that is no conditional is not looked into, even if it holds one. -/
theorem evaluateWithin_builtin_normal_list_of_conditional :
    let inner : Datum := .conditional (.int 3) (.int 4) (.int 5)
    let v : Datum := .ofList [.symbol ['+'], inner, .int 1]
    let e : Datum := .conditional (.conditional (.bool true) (.bool false) inner) (.int 2) v
    let env : Environment Empty := Environment.empty.bindName ['+'] inner
    evaluateWithin .builtin 3 e env = ⟨[], .ok (v, env)⟩ ∧ v.IsPart e ∧
      ∀ env', evaluateWithin .builtin 1 v env' = ⟨[], .ok (v, env')⟩ := by
  intro inner v e env
  have hEval : evaluateWithin .builtin 3 e env = ⟨[], .ok (v, env)⟩ := rfl
  obtain ⟨-, -, hPart, -, hAgain⟩ := evaluateWithin_builtin_normal hEval
  exact ⟨hEval, hPart, fun env' => hAgain 1 env' Nat.one_pos⟩

end Lisp
