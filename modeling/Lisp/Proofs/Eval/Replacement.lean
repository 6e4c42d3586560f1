import Lisp.Proofs.Eval.Uniform

/-! Conditionals are short circuits. Along the path that an evaluation takes, a branch that is not
selected can be replaced by anything, and a condition by any other one that selects the same
branch: what a condition binds is dropped, so that it cannot be told from the environment. -/

namespace Lisp

variable {F : Type}

/-- The second expression is the first one with other branches in place of those that are not
selected, and perhaps with other conditions, at any number of conditionals that its evaluation gets
to through selected branches and operands of bindings. `Change` says which conditions may be
replaced by which others. They must select the same branch in any case. -/
inductive Replaces (registry : Registry F) (env : Environment F)
    (Change : Expr F → Expr F → Prop) : Expr F → Expr F → Prop where
  | refl (e : Expr F) : Replaces registry env Change e e
  | operand {name : Text} {operand operand' : Expr F} (hName : registry.get? name = some .binding)
      (target : Expr F) (hOperand : Replaces registry env Change operand operand') :
      Replaces registry env Change (.form name [target, operand]) (.form name [target, operand'])
  | branch {name : Text} {condition condition' consequent consequent' alternative alternative' :
      Expr F} {choice : Bool} (hName : registry.get? name = some .conditional)
      (hSelects : HasValue registry env condition (.bool choice))
      (hSelects' : HasValue registry env condition' (.bool choice))
      (hChange : Change condition condition')
      (hBranch : Replaces registry env Change (if choice then consequent else alternative)
        (if choice then consequent' else alternative')) :
      Replaces registry env Change (.form name [condition, consequent, alternative])
        (.form name [condition', consequent', alternative'])

variable {registry : Registry F} {env : Environment F} {Change : Expr F → Expr F → Prop}
  {e e' : Expr F}

namespace Replaces

/-- Both expressions end in the same way: with the same value and bindings, or the same error. -/
theorem exists_hasEffect (hBasic : registry.IsBasic)
    (hReplaces : Replaces registry env Change e e') :
    ∃ result depth depth' recorded recorded', HasEffect registry e depth ⟨recorded, result⟩ ∧
      HasEffect registry e' depth' ⟨recorded', result⟩ := by
  induction hReplaces with
  | refl e =>
      obtain ⟨depth, ⟨recorded, result⟩, hEffect⟩ := Lisp.exists_hasEffect hBasic e
      exact ⟨result, depth, depth, recorded, recorded, hEffect, hEffect⟩
  | operand hName target hOperand ih =>
      obtain ⟨result, depth, depth', recorded, recorded', hFirst, hSecond⟩ := ih
      obtain ⟨result', hBinding⟩ := exists_hasEffect_binding hName target result
      exact ⟨result', _, _, recorded, recorded', hBinding _ _ _ hFirst, hBinding _ _ _ hSecond⟩
  | branch hName hSelects hSelects' hChange hBranch ih =>
      obtain ⟨result, depth, depth', recorded, recorded', hFirst, hSecond⟩ := ih
      obtain ⟨_, _, _, hCondition⟩ := hSelects.exists_hasEffect hBasic
      obtain ⟨_, _, _, hCondition'⟩ := hSelects'.exists_hasEffect hBasic
      exact ⟨result, _, _, _, _, .conditional hName hCondition hFirst,
        .conditional hName hCondition' hSecond⟩

/-- Where no condition is replaced, not even the budget makes a difference. -/
theorem evaluateWithin_eq (hBasic : registry.IsBasic) (hReplaces : Replaces registry env Eq e e')
    (budget : Nat) :
    evaluateWithin registry budget e' env = evaluateWithin registry budget e env := by
  induction hReplaces generalizing budget with
  | refl e => rfl
  | operand hName target hOperand ih =>
      cases budget with
      | zero => rfl
      | succ budget =>
          rw [evaluateWithin_form hName rfl, evaluateWithin_form hName rfl]
          simp only [SpecialForm.binding, ih budget]
  | branch hName hSelects hSelects' hChange hBranch ih =>
      subst hChange
      cases budget with
      | zero => rfl
      | succ budget =>
          rw [evaluateWithin_form hName rfl, evaluateWithin_form hName rfl]
          obtain ⟨depth, recorded, dropped, hCondition⟩ := hSelects.exists_hasEffect hBasic
          -- a condition that does not fit into the budget fails in the same way in both
          rcases Nat.lt_or_ge budget depth with hLess | hEnough
          · obtain ⟨recorded, -, hFails⟩ := hCondition.exists_evaluateWithin_of_lt hLess
            rw [SpecialForm.run_conditional_of_error (hFails env),
              SpecialForm.run_conditional_of_error (hFails env)]
          · have hSame := hCondition.evaluateWithin_eq hEnough env
            rw [SpecialForm.run_conditional_of_bool hSame rfl,
              SpecialForm.run_conditional_of_bool hSame rfl, ih]

end Replaces

/-- An expression that has a value keeps it, and the environment that it leaves, if branches that
are not selected and conditions along its path are replaced. If only the branches are replaced,
the evaluation is the same in all respects, whatever comes of it: the tags, the result, and the
budget that it needs. -/
theorem evaluateWithin_of_replaces (hBasic : registry.IsBasic) :
    (∀ Change budget recorded value left, Replaces registry env Change e e' →
      evaluateWithin registry budget e env = ⟨recorded, .ok (value, left)⟩ →
        ∃ enough recorded', ∀ budget', enough ≤ budget' →
          evaluateWithin registry budget' e' env = ⟨recorded', .ok (value, left)⟩) ∧
    (Replaces registry env Eq e e' → ∀ budget,
      evaluateWithin registry budget e' env = evaluateWithin registry budget e env) := by
  refine ⟨fun _ budget recorded value left hReplaces hEval => ?_, fun hReplaces budget =>
    hReplaces.evaluateWithin_eq hBasic budget⟩
  obtain ⟨depth, bindings, hEffect, -, rfl⟩ := exists_hasEffect_of_eq_ok hBasic hEval
  obtain ⟨result, _, depth', _, recorded', hFirst, hSecond⟩ := hReplaces.exists_hasEffect hBasic
  obtain ⟨-, hSame⟩ := hEffect.unique hFirst
  obtain ⟨-, rfl⟩ := Outcome.mk.inj hSame
  exact ⟨depth', recorded', fun budget' hEnough => hSecond.evaluateWithin_eq hEnough env⟩

/-- Two conditionals on one path, the inner one in the operand of a binding. Both branches that are
not selected are replaced, one of them by a conditional that fails, and then both conditions too. -/
theorem evaluateWithin_of_replaces_nested_conditionals :
    let bind (name : Text) (operand : Datum) : Datum :=
      .form "bind!".toList [.symbol name, operand]
    let touch (tag : Datum) : Datum := .form "touch!".toList [tag]
    let failing : Datum := .conditional (.int 3) (.int 4) (.int 5)
    let bound (condition consequent : Datum) : Datum :=
      bind ['x'] (.conditional condition consequent (touch (.int 1)))
    let e : Datum := .conditional (.bool true) (bound (bind ['y'] (.bool false)) (.int 2)) .nil
    let e' : Datum :=
      .conditional (.bool true) (bound (bind ['y'] (.bool false)) failing) failing
    let e'' : Datum :=
      .conditional (touch (.bool true)) (bound (touch (.bool false)) failing) failing
    let left : Environment Empty := Environment.empty.bindName ['x'] (.int 1)
    Registry.IsBasic (F := Empty) .effectful ∧ Replaces .effectful .empty Eq e e' ∧
      Replaces .effectful .empty (fun _ _ => True) e e'' ∧
      evaluateWithin .effectful 5 e .empty = ⟨[.int 1], .ok (.int 1, left)⟩ ∧
      evaluateWithin .effectful 5 e' .empty = ⟨[.int 1], .ok (.int 1, left)⟩ ∧
      ∃ enough recorded', ∀ budget', enough ≤ budget' →
        evaluateWithin .effectful budget' e'' .empty = ⟨recorded', .ok (.int 1, left)⟩ := by
  intro bind touch failing bound e e' e'' left
  have hBasic : Registry.IsBasic (F := Empty) .effectful := Registry.isBasic_effectful
  have hIf : (Registry.effectful (F := Empty)).get? ['i', 'f'] = some .conditional := rfl
  have hBind : (Registry.effectful (F := Empty)).get? "bind!".toList = some .binding := rfl
  have hOuter : HasValue .effectful .empty (.bool true : Datum) (.bool true) := ⟨1, _, _, rfl⟩
  have hOuter' : HasValue .effectful .empty (touch (.bool true)) (.bool true) := ⟨1, _, _, rfl⟩
  have hInner : HasValue .effectful .empty (bind ['y'] (.bool false)) (.bool false) :=
    ⟨2, _, _, rfl⟩
  have hInner' : HasValue .effectful .empty (touch (.bool false)) (.bool false) := ⟨1, _, _, rfl⟩
  have hReplaces : Replaces .effectful .empty Eq e e' :=
    .branch hIf hOuter hOuter rfl
      (.operand hBind _ (.branch hIf hInner hInner rfl (.refl (touch (.int 1)))))
  have hReplaces' : Replaces .effectful .empty (fun _ _ => True) e e'' :=
    .branch hIf hOuter hOuter' trivial
      (.operand hBind _ (.branch hIf hInner hInner' trivial (.refl (touch (.int 1)))))
  have hEval : evaluateWithin .effectful 5 e .empty = ⟨[.int 1], .ok (.int 1, left)⟩ := rfl
  exact ⟨hBasic, hReplaces, hReplaces', hEval,
    ((evaluateWithin_of_replaces hBasic).2 hReplaces 5).trans hEval,
    (evaluateWithin_of_replaces hBasic).1 _ 5 _ _ _ hReplaces' hEval⟩

end Lisp
