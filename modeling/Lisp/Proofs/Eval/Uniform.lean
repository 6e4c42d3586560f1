import Lisp.Proofs.Eval.Effect

/-! Evaluation with the basic forms is uniform: every expression has one effect, whatever the
environment. A value that it has in one environment it has in all of them, and what it binds does
not depend on what is bound before. -/

namespace Lisp

variable {F : Type} {registry : Registry F} {name : Text}

/-- How a binding ends depends only on how its operand ends. -/
theorem exists_hasEffect_binding (hName : registry.get? name = some .binding) (target : Expr F)
    (result : Except (EvalError F) (Expr F × List (Text × Expr F))) :
    ∃ result', ∀ operand depth recorded, HasEffect registry operand depth ⟨recorded, result⟩ →
      HasEffect registry (.form name [target, operand]) (depth + 1) ⟨recorded, result'⟩ := by
  rcases result with err | ⟨value, bindings⟩
  · exact ⟨_, fun operand depth recorded hOperand => .operandFails hName target hOperand⟩
  · by_cases hTarget : ∃ bound, target = .symbol bound
    · obtain ⟨bound, rfl⟩ := hTarget
      exact ⟨_, fun operand depth recorded hOperand => .binding hName hOperand⟩
    · exact ⟨_, fun operand depth recorded hOperand =>
        .notSymbol hName (not_exists.1 hTarget) hOperand⟩

/-- A conditional does something whatever its condition does, if both of its branches do. -/
theorem exists_hasEffect_conditional (hName : registry.get? name = some .conditional)
    {condition consequent alternative : Expr F}
    (hCondition : ∃ depth effect, HasEffect registry condition depth effect)
    (hConsequent : ∃ depth effect, HasEffect registry consequent depth effect)
    (hAlternative : ∃ depth effect, HasEffect registry alternative depth effect) :
    ∃ depth effect,
      HasEffect registry (.form name [condition, consequent, alternative]) depth effect := by
  obtain ⟨depth, ⟨recorded, err | ⟨value, dropped⟩⟩, hCondition⟩ := hCondition
  · exact ⟨_, _, .conditionFails hName hCondition consequent alternative⟩
  · by_cases hValue : ∃ choice, value = .bool choice
    · obtain ⟨choice, rfl⟩ := hValue
      have hBranch : ∃ depth effect,
          HasEffect registry (if choice then consequent else alternative) depth effect := by
        cases choice with
        | true => exact hConsequent
        | false => exact hAlternative
      obtain ⟨depth', effect, hBranch⟩ := hBranch
      exact ⟨_, _, .conditional hName hCondition hBranch⟩
    · exact ⟨_, _, .mismatch hName hCondition (not_exists.1 hValue) consequent alternative⟩

/-- Every expression has an effect. The induction is on its size, since a form and what is nested
in it are lists of their own. -/
theorem exists_hasEffect (hBasic : registry.IsBasic) (e : Expr F) :
    ∃ depth effect, HasEffect registry e depth effect := by
  induction hSize : e.size using Nat.strongRecOn generalizing e with
  | _ size ih =>
      subst hSize
      cases hDispatch : registry.dispatch? e with
      | none =>
          by_cases hHost : ∃ value, e = .host value
          · obtain ⟨value, rfl⟩ := hHost
            exact ⟨_, _, .host value⟩
          · exact ⟨_, _, .data hDispatch (not_exists.1 hHost)⟩
      | some found =>
          obtain ⟨form, operands⟩ := found
          obtain ⟨name, hName, hArity, rfl⟩ := Registry.dispatch?_eq_some_iff.1 hDispatch
          have hNested : ∀ operand ∈ operands, ∃ depth effect,
              HasEffect registry operand depth effect :=
            fun operand hMem => ih operand.size (Expr.size_lt_size_form hMem) operand rfl
          cases hBasic name form hName with
          | recording =>
              obtain ⟨tag, rfl⟩ := List.length_eq_one_iff.1 hArity
              exact ⟨_, _, .recording hName tag⟩
          | binding =>
              obtain ⟨target, operand, rfl⟩ := List.length_eq_two.1 hArity
              obtain ⟨depth, ⟨recorded, result⟩, hOperand⟩ := hNested operand (by simp)
              obtain ⟨result', hBinding⟩ := exists_hasEffect_binding hName target result
              exact ⟨_, _, hBinding operand depth recorded hOperand⟩
          | conditional =>
              obtain ⟨condition, consequent, alternative, rfl⟩ := List.length_eq_three.1 hArity
              exact exists_hasEffect_conditional hName (hNested condition (by simp))
                (hNested consequent (by simp)) (hNested alternative (by simp))

/-- A value in one environment comes from an effect that gives it in all of them. -/
theorem exists_hasEffect_of_eq_ok (hBasic : registry.IsBasic) {e value : Expr F} {budget : Nat}
    {env left : Environment F} {recorded : List (Expr F)}
    (hEval : evaluateWithin registry budget e env = ⟨recorded, .ok (value, left)⟩) :
    ∃ depth bindings, HasEffect registry e depth ⟨recorded, .ok (value, bindings)⟩ ∧
      depth ≤ budget ∧ left = env.bindAll bindings := by
  obtain ⟨depth, effect, hEffect⟩ := exists_hasEffect hBasic e
  have hDepth : depth ≤ budget := hEffect.depth_le (by rw [hEval]; nofun)
  rw [hEffect.evaluateWithin_eq hDepth] at hEval
  obtain ⟨bindings, rfl, hLeft⟩ := Effect.exists_of_outcome_eq_ok hEval
  exact ⟨depth, bindings, hEffect, hDepth, hLeft⟩

/-- An error other than that the budget is exceeded comes from an effect that gives it in all
environments. -/
theorem exists_hasEffect_of_eq_error (hBasic : registry.IsBasic) {e : Expr F} {budget : Nat}
    {env : Environment F} {recorded : List (Expr F)} {err : EvalError F}
    (hEval : evaluateWithin registry budget e env = ⟨recorded, .error err⟩)
    (hErr : err ≠ .depthExceeded) :
    ∃ depth, HasEffect registry e depth ⟨recorded, .error err⟩ := by
  obtain ⟨depth, effect, hEffect⟩ := exists_hasEffect hBasic e
  have hDepth : depth ≤ budget :=
    hEffect.depth_le (by rw [hEval]; exact fun hExceeds => hErr (Except.error.inj hExceeds))
  rw [hEffect.evaluateWithin_eq hDepth] at hEval
  obtain rfl := Effect.eq_of_outcome_eq_error hEval
  exact ⟨depth, hEffect⟩

section Value

variable {env : Environment F} {e value value' : Expr F}

/-- The expression has this value in the environment, if the budget is large enough. -/
def HasValue (registry : Registry F) (env : Environment F) (e value : Expr F) : Prop :=
  ∃ budget recorded left, evaluateWithin registry budget e env = ⟨recorded, .ok (value, left)⟩

theorem HasEffect.hasValue {depth : Nat} {recorded : List (Expr F)}
    {bindings : List (Text × Expr F)}
    (hEffect : HasEffect registry e depth ⟨recorded, .ok (value, bindings)⟩)
    (env : Environment F) : HasValue registry env e value :=
  ⟨depth, recorded, _, hEffect.evaluateWithin_eq (Nat.le_refl _) env⟩

theorem HasValue.exists_hasEffect (hBasic : registry.IsBasic)
    (hValue : HasValue registry env e value) :
    ∃ depth recorded bindings, HasEffect registry e depth ⟨recorded, .ok (value, bindings)⟩ := by
  obtain ⟨budget, recorded, left, hEval⟩ := hValue
  obtain ⟨depth, bindings, hEffect, -, -⟩ := exists_hasEffect_of_eq_ok hBasic hEval
  exact ⟨depth, recorded, bindings, hEffect⟩

theorem HasValue.unique (hBasic : registry.IsBasic) (hValue : HasValue registry env e value)
    (hValue' : HasValue registry env e value') : value' = value := by
  obtain ⟨depth, recorded, bindings, hEffect⟩ := hValue.exists_hasEffect hBasic
  obtain ⟨depth', recorded', bindings', hEffect'⟩ := hValue'.exists_hasEffect hBasic
  cases (hEffect.unique hEffect').2
  rfl

end Value

/-- With the basic forms an expression has one effect, and it is the same in every environment: an
error, or a value and the bindings that the environment is extended by. Only the budget counts
beside it. Less than the depth of the expression is exceeded in every environment, and more makes
no difference. -/
theorem exists_unique_effect (hBasic : registry.IsBasic) (e : Expr F) :
    ∃ depth effect,
      (∀ depth' effect', HasEffect registry e depth' effect' ↔
        depth' = depth ∧ effect' = effect) ∧
      (∀ budget env, depth ≤ budget →
        evaluateWithin registry budget e env = effect.outcome env) ∧
      ∀ budget, budget < depth → ∃ recorded, ∀ env,
        evaluateWithin registry budget e env = ⟨recorded, .error .depthExceeded⟩ := by
  obtain ⟨depth, effect, hEffect⟩ := exists_hasEffect hBasic e
  refine ⟨depth, effect, fun depth' effect' => ⟨hEffect.unique, ?_⟩, ?_, ?_⟩
  · rintro ⟨rfl, rfl⟩
    exact hEffect
  · exact fun budget env hDepth => hEffect.evaluateWithin_eq hDepth env
  · intro budget hDepth
    obtain ⟨recorded, -, hFails⟩ := hEffect.exists_evaluateWithin_of_lt hDepth
    exact ⟨recorded, hFails⟩

/-- What the condition binds is dropped, although what it records stays, and the bindings of the
selected branch are made from the inside out. -/
theorem exists_unique_effect_nested_bindings :
    let condition : Datum := .form "bind!".toList
      [.symbol ['c'], .form "touch!".toList [.bool true]]
    let consequent : Datum := .form "bind!".toList
      [.symbol ['x'], .form "bind!".toList [.symbol ['y'], .int 1]]
    let alternative : Datum := .form "bind!".toList [.symbol ['z'], .int 2]
    let e : Datum := .conditional condition consequent alternative
    let bindings : List (Text × Datum) := [(['y'], .int 1), (['x'], .int 1)]
    Registry.IsBasic (F := Empty) .effectful ∧
      HasEffect .effectful e 4 ⟨[.bool true], .ok (.int 1, bindings)⟩ ∧
      ∀ budget env, 4 ≤ budget → evaluateWithin .effectful budget e env =
        ⟨[.bool true], .ok (.int 1, env.bindAll bindings)⟩ := by
  intro condition consequent alternative e bindings
  have hIf : (Registry.effectful (F := Empty)).get? ['i', 'f'] = some .conditional := rfl
  have hBind : (Registry.effectful (F := Empty)).get? "bind!".toList = some .binding := rfl
  have hInteger : HasEffect .effectful (.int 1 : Datum) 1 ⟨[], .ok (.int 1, [])⟩ := .data rfl nofun
  have hCondition : HasEffect .effectful condition 2 ⟨[.bool true], .ok (.bool true, _)⟩ :=
    .binding hBind (.recording rfl (.bool true))
  have hConsequent : HasEffect .effectful consequent 3 ⟨[], .ok (.int 1, bindings)⟩ :=
    .binding hBind (.binding hBind hInteger)
  have hEffect : HasEffect .effectful e 4 ⟨[.bool true], .ok (.int 1, bindings)⟩ :=
    .conditional hIf hCondition hConsequent
  obtain ⟨depth, effect, hOnly, hOutcome, -⟩ := exists_unique_effect Registry.isBasic_effectful e
  obtain ⟨rfl, rfl⟩ := (hOnly _ _).1 hEffect
  exact ⟨Registry.isBasic_effectful, hEffect, hOutcome⟩

end Lisp
