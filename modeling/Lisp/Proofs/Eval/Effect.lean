import Lisp.Proofs.Eval.Form
import Mathlib.Data.List.Basic

/-! What an expression does when it is evaluated, said without an environment. With the forms that
select, bind and record, evaluation never looks at what is bound: an expression has one effect,
which is the same in every environment. -/

namespace Lisp

variable {F : Type}

/-- The forms that choose between branches, bind a name and record a tag. None of them looks at the
environment. -/
inductive SpecialForm.IsBasic : SpecialForm F → Prop where
  | conditional : IsBasic .conditional
  | binding : IsBasic .binding
  | recording : IsBasic .recording

namespace Registry

/-- All forms of the registry are basic ones, by whatever names. -/
def IsBasic (registry : Registry F) : Prop :=
  ∀ name form, registry.get? name = some form → form.IsBasic

theorem isBasic_insert {registry : Registry F} (hBasic : registry.IsBasic) (name : Text)
    {form : SpecialForm F} (hForm : form.IsBasic) : IsBasic (registry.insert name form) := by
  intro other found hFound
  rw [Bindings.get?_insert] at hFound
  split at hFound
  · cases hFound
    exact hForm
  · exact hBasic other found hFound

theorem isBasic_extend {registry : Registry F} (hBasic : registry.IsBasic)
    {extra : List (Text × SpecialForm F)} (hExtra : ∀ entry ∈ extra, entry.2.IsBasic) :
    (registry.extend extra).IsBasic := by
  induction extra generalizing registry with
  | nil => exact hBasic
  | cons entry extra ih =>
      rw [List.forall_mem_cons] at hExtra
      exact ih (isBasic_insert hBasic entry.1 hExtra.1) hExtra.2

theorem isBasic_builtin : (builtin : Registry F).IsBasic := by
  have hEmpty : IsBasic (Bindings.empty : Registry F) := by
    intro name form hFound
    cases hFound
  exact isBasic_insert hEmpty _ .conditional

/-- The form of the language, and two forms whose effects can be seen from outside. -/
def effectful : Registry F :=
  builtin.extend [("bind!".toList, .binding), ("touch!".toList, .recording)]

theorem isBasic_effectful : (effectful : Registry F).IsBasic := by
  apply isBasic_extend isBasic_builtin
  intro entry hMem
  rcases List.mem_pair.1 hMem with rfl | rfl
  · exact .binding
  · exact .recording

end Registry

namespace Environment

/-- The environment with these bindings made in order. -/
def bindAll (env : Environment F) (bindings : List (Text × Expr F)) : Environment F :=
  bindings.foldl (fun env binding => env.bindName binding.1 binding.2) env

theorem bindAll_concat (env : Environment F) (bindings : List (Text × Expr F))
    (name : Text) (value : Expr F) :
    env.bindAll (bindings ++ [(name, value)]) = (env.bindAll bindings).bindName name value := by
  rw [bindAll, List.foldl_append]
  rfl

theorem entries_frames_bindAll (env : Environment F) (bindings : List (Text × Expr F)) :
    (env.bindAll bindings).frames.map Bindings.entries =
      (bindings.map fun binding => [binding]).reverse ++ env.frames.map Bindings.entries := by
  induction bindings generalizing env with
  | nil => rfl
  | cons binding bindings ih =>
      rw [bindAll, List.foldl_cons, ← bindAll, ih, List.map_cons, List.reverse_cons,
        List.append_assoc]
      rfl

/-- An environment shows which bindings have been made. -/
theorem bindAll_injective (env : Environment F) : Function.Injective env.bindAll := by
  intro bindings bindings' hEq
  have hFrames := congrArg (fun env => env.frames.map Bindings.entries) hEq
  simp only [entries_frames_bindAll, List.append_cancel_right_eq, List.reverse_inj] at hFrames
  exact List.map_injective_iff.2 List.singleton_injective hFrames

end Environment

/-- What evaluating an expression does: the tags it records, and the error it fails with or its
value and the bindings it makes, in order. -/
abbrev Effect (F : Type) := Outcome F (Expr F × List (Text × Expr F))

namespace Effect

/-- What an effect comes to in an environment, which the bindings extend. -/
def outcome (effect : Effect F) (env : Environment F) : Outcome F (Evaluated F) :=
  ⟨effect.recorded, effect.result.map fun done => (done.1, env.bindAll done.2)⟩

theorem outcome_ok (recorded : List (Expr F)) (value : Expr F) (bindings : List (Text × Expr F))
    (env : Environment F) :
    outcome ⟨recorded, .ok (value, bindings)⟩ env =
      ⟨recorded, .ok (value, env.bindAll bindings)⟩ := rfl

theorem exists_of_outcome_eq_ok {effect : Effect F} {env left : Environment F}
    {recorded : List (Expr F)} {value : Expr F}
    (hOutcome : effect.outcome env = ⟨recorded, .ok (value, left)⟩) :
    ∃ bindings, effect = ⟨recorded, .ok (value, bindings)⟩ ∧ left = env.bindAll bindings := by
  rcases effect with ⟨recorded', err | ⟨value', bindings⟩⟩
  · cases hOutcome
  · cases hOutcome
    exact ⟨bindings, rfl, rfl⟩

theorem eq_of_outcome_eq_error {effect : Effect F} {env : Environment F}
    {recorded : List (Expr F)} {err : EvalError F}
    (hOutcome : effect.outcome env = ⟨recorded, .error err⟩) :
    effect = ⟨recorded, .error err⟩ := by
  rcases effect with ⟨recorded', err' | done⟩
  · cases hOutcome
    rfl
  · cases hOutcome

/-- An effect shows in any one environment. -/
theorem eq_of_outcome_eq (env : Environment F) {effect effect' : Effect F}
    (hEq : effect.outcome env = effect'.outcome env) : effect = effect' := by
  obtain ⟨recorded, result⟩ := effect
  obtain ⟨recorded', result'⟩ := effect'
  obtain ⟨rfl, hResult⟩ := Outcome.mk.inj hEq
  congr 1
  cases result with
  | error err =>
      cases result' with
      | error err' =>
          cases hResult
          rfl
      | ok done' => cases hResult
  | ok done =>
      cases result' with
      | error err' => cases hResult
      | ok done' =>
          obtain ⟨hValue, hBindings⟩ := Prod.mk.inj (Except.ok.inj hResult)
          exact congrArg Except.ok (Prod.ext hValue (env.bindAll_injective hBindings))

end Effect

/-- What an expression does with the basic forms of a registry, and how many evaluations are nested
in doing it. The path runs through the selected branches of conditionals and the operands of
bindings: what a condition binds is dropped, and what it records is not. -/
inductive HasEffect (registry : Registry F) :
    Expr F → (depth : Nat) → Effect F → Prop where
  | data {e : Expr F} (hData : registry.dispatch? e = none) (hExpr : ∀ value, e ≠ .host value) :
      HasEffect registry e 1 ⟨[], .ok (e, [])⟩
  | host (value : F) : HasEffect registry (.host value) 1 ⟨[], .error (.notExpression value)⟩
  | recording {name : Text} (hName : registry.get? name = some .recording) (tag : Expr F) :
      HasEffect registry (.form name [tag]) 1 ⟨[tag], .ok (tag, [])⟩
  | binding {name bound : Text} {operand value : Expr F} {depth : Nat} {recorded : List (Expr F)}
      {bindings : List (Text × Expr F)} (hName : registry.get? name = some .binding)
      (hOperand : HasEffect registry operand depth ⟨recorded, .ok (value, bindings)⟩) :
      HasEffect registry (.form name [.symbol bound, operand]) (depth + 1)
        ⟨recorded, .ok (value, bindings ++ [(bound, value)])⟩
  | notSymbol {name : Text} {target operand : Expr F} {depth : Nat} {recorded : List (Expr F)}
      {done : Expr F × List (Text × Expr F)} (hName : registry.get? name = some .binding)
      (hTarget : ∀ bound, target ≠ .symbol bound)
      (hOperand : HasEffect registry operand depth ⟨recorded, .ok done⟩) :
      HasEffect registry (.form name [target, operand]) (depth + 1)
        ⟨recorded, .error (.name (.notSymbol target))⟩
  | operandFails {name : Text} {operand : Expr F} {depth : Nat} {recorded : List (Expr F)}
      {err : EvalError F} (hName : registry.get? name = some .binding) (target : Expr F)
      (hOperand : HasEffect registry operand depth ⟨recorded, .error err⟩) :
      HasEffect registry (.form name [target, operand]) (depth + 1) ⟨recorded, .error err⟩
  | conditional {name : Text} {condition consequent alternative : Expr F} {depth depth' : Nat}
      {recorded recorded' : List (Expr F)} {choice : Bool} {dropped : List (Text × Expr F)}
      {result : Except (EvalError F) (Expr F × List (Text × Expr F))}
      (hName : registry.get? name = some .conditional)
      (hCondition : HasEffect registry condition depth ⟨recorded, .ok (.bool choice, dropped)⟩)
      (hBranch : HasEffect registry (if choice then consequent else alternative) depth'
        ⟨recorded', result⟩) :
      HasEffect registry (.form name [condition, consequent, alternative]) (max depth depth' + 1)
        ⟨recorded ++ recorded', result⟩
  | mismatch {name : Text} {condition value : Expr F} {depth : Nat} {recorded : List (Expr F)}
      {dropped : List (Text × Expr F)} (hName : registry.get? name = some .conditional)
      (hCondition : HasEffect registry condition depth ⟨recorded, .ok (value, dropped)⟩)
      (hValue : ∀ choice, value ≠ .bool choice) (consequent alternative : Expr F) :
      HasEffect registry (.form name [condition, consequent, alternative]) (depth + 1)
        ⟨recorded, .error (.typeMismatch (.form name [condition, consequent, alternative]) value)⟩
  | conditionFails {name : Text} {condition : Expr F} {depth : Nat} {recorded : List (Expr F)}
      {err : EvalError F} (hName : registry.get? name = some .conditional)
      (hCondition : HasEffect registry condition depth ⟨recorded, .error err⟩)
      (consequent alternative : Expr F) :
      HasEffect registry (.form name [condition, consequent, alternative]) (depth + 1)
        ⟨recorded, .error err⟩

namespace HasEffect

variable {registry : Registry F} {e : Expr F} {depth budget : Nat} {effect : Effect F}

/-- With a budget of at least its depth, an expression does the same in every environment. The
environment does not change on the way down, so each case is that of one form. -/
theorem evaluateWithin_eq (hEffect : HasEffect registry e depth effect) (hDepth : depth ≤ budget)
    (env : Environment F) : evaluateWithin registry budget e env = effect.outcome env := by
  induction hEffect generalizing budget with
  | data hData hExpr =>
      obtain ⟨spare, rfl⟩ := Nat.exists_eq_add_of_le' hDepth
      exact evaluateWithin_of_dispatch?_eq_none hData hExpr spare env
  | host value =>
      obtain ⟨spare, rfl⟩ := Nat.exists_eq_add_of_le' hDepth
      rfl
  | recording hName tag =>
      obtain ⟨spare, rfl⟩ := Nat.exists_eq_add_of_le' hDepth
      apply (evaluateWithin_form hName rfl _ env).trans
      exact SpecialForm.run_recording tag
  | binding hName hOperand ih =>
      obtain ⟨spare, rfl⟩ := Nat.exists_eq_add_of_le' hDepth
      rw [Effect.outcome_ok, Environment.bindAll_concat]
      apply (evaluateWithin_form hName rfl _ env).trans
      apply SpecialForm.run_binding_of_symbol
      exact ih (Nat.le_add_left ..)
  | notSymbol hName hTarget hOperand ih =>
      obtain ⟨spare, rfl⟩ := Nat.exists_eq_add_of_le' hDepth
      apply (evaluateWithin_form hName rfl _ env).trans
      exact SpecialForm.run_binding_of_ne_symbol (ih (Nat.le_add_left ..)) hTarget
  | operandFails hName target hOperand ih =>
      obtain ⟨spare, rfl⟩ := Nat.exists_eq_add_of_le' hDepth
      apply (evaluateWithin_form hName rfl _ env).trans
      exact SpecialForm.run_binding_of_error (ih (Nat.le_add_left ..))
  | conditional hName hCondition hBranch ihCondition ihBranch =>
      obtain ⟨spare, rfl⟩ := Nat.exists_eq_add_of_le' hDepth
      apply (evaluateWithin_form hName rfl _ env).trans
      apply SpecialForm.run_conditional_of_bool
      · exact ihCondition (Nat.le_add_left_of_le (Nat.le_max_left ..))
      · exact ihBranch (Nat.le_add_left_of_le (Nat.le_max_right ..))
  | mismatch hName hCondition hValue consequent alternative ih =>
      obtain ⟨spare, rfl⟩ := Nat.exists_eq_add_of_le' hDepth
      apply (evaluateWithin_form hName rfl _ env).trans
      exact SpecialForm.run_conditional_of_ne_bool (ih (Nat.le_add_left ..)) hValue
  | conditionFails hName hCondition consequent alternative ih =>
      obtain ⟨spare, rfl⟩ := Nat.exists_eq_add_of_le' hDepth
      apply (evaluateWithin_form hName rfl _ env).trans
      exact SpecialForm.run_conditional_of_error (ih (Nat.le_add_left ..))

/-- With less budget than its depth, an expression exceeds it in every environment, and what it
records before that is a part of what it would record. -/
theorem exists_evaluateWithin_of_lt (hEffect : HasEffect registry e depth effect)
    (hDepth : budget < depth) :
    ∃ recorded, recorded <+: effect.recorded ∧
      ∀ env, evaluateWithin registry budget e env = ⟨recorded, .error .depthExceeded⟩ := by
  induction hEffect generalizing budget with
  | data hData hExpr =>
      obtain rfl := Nat.lt_one_iff.1 hDepth
      exact ⟨[], List.nil_prefix, fun env => rfl⟩
  | host value =>
      obtain rfl := Nat.lt_one_iff.1 hDepth
      exact ⟨[], List.nil_prefix, fun env => rfl⟩
  | recording hName tag =>
      obtain rfl := Nat.lt_one_iff.1 hDepth
      exact ⟨[], List.nil_prefix, fun env => rfl⟩
  | binding hName hOperand ih | notSymbol hName hTarget hOperand ih
  | operandFails hName target hOperand ih =>
      cases budget with
      | zero => exact ⟨[], List.nil_prefix, fun env => rfl⟩
      | succ budget =>
          obtain ⟨recorded, hRecorded, hOperand⟩ := ih (Nat.lt_of_succ_lt_succ hDepth)
          exact ⟨recorded, hRecorded, fun env => (evaluateWithin_form hName rfl budget env).trans
            (SpecialForm.run_binding_of_error (hOperand env))⟩
  | mismatch hName hCondition hValue consequent alternative ih
  | conditionFails hName hCondition consequent alternative ih =>
      cases budget with
      | zero => exact ⟨[], List.nil_prefix, fun env => rfl⟩
      | succ budget =>
          obtain ⟨recorded, hRecorded, hCondition⟩ := ih (Nat.lt_of_succ_lt_succ hDepth)
          exact ⟨recorded, hRecorded, fun env => (evaluateWithin_form hName rfl budget env).trans
            (SpecialForm.run_conditional_of_error (hCondition env))⟩
  | @conditional _ _ _ _ depth depth' tags _ _ _ _ hName hCondition hBranch ihCondition ihBranch =>
      cases budget with
      | zero => exact ⟨[], List.nil_prefix, fun env => rfl⟩
      | succ budget =>
          rcases Nat.lt_or_ge budget depth with hLess | hEnough
          · obtain ⟨recorded, hRecorded, hFails⟩ := ihCondition hLess
            refine ⟨recorded, hRecorded.trans (List.prefix_append ..), fun env => ?_⟩
            exact (evaluateWithin_form hName rfl budget env).trans
              (SpecialForm.run_conditional_of_error (hFails env))
          · -- the condition has its value within the budget, so it is the branch that exceeds it
            have hLess : budget < depth' := by omega
            obtain ⟨recorded, hRecorded, hFails⟩ := ihBranch hLess
            refine ⟨tags ++ recorded, (List.prefix_append_right_inj tags).2 hRecorded,
              fun env => ?_⟩
            exact (evaluateWithin_form hName rfl budget env).trans
              (SpecialForm.run_conditional_of_bool (hCondition.evaluateWithin_eq hEnough env)
                (hFails env))

/-- To exceed the budget is no effect. -/
theorem result_ne_depthExceeded (hEffect : HasEffect registry e depth effect) :
    effect.result ≠ .error .depthExceeded := by
  induction hEffect with
  | operandFails hName target hOperand ih | conditionFails hName hCondition _ _ ih => exact ih
  | conditional hName hCondition hBranch ihCondition ihBranch => exact ihBranch
  | _ => nofun

/-- The depth of an expression is the budget that it needs. -/
theorem exceeds_iff (hEffect : HasEffect registry e depth effect) (budget : Nat)
    (env : Environment F) :
    (evaluateWithin registry budget e env).result = .error .depthExceeded ↔ budget < depth := by
  constructor
  · intro hExceeds
    by_contra hEnough
    rw [hEffect.evaluateWithin_eq (Nat.le_of_not_lt hEnough), Effect.outcome] at hExceeds
    cases hResult : effect.result with
    | error err =>
        rw [hResult] at hExceeds
        cases hExceeds
        exact hEffect.result_ne_depthExceeded hResult
    | ok done =>
        rw [hResult] at hExceeds
        cases hExceeds
  · intro hLess
    obtain ⟨recorded, -, hFails⟩ := hEffect.exists_evaluateWithin_of_lt hLess
    rw [hFails]

/-- A budget that is not exceeded is at least the depth. -/
theorem depth_le (hEffect : HasEffect registry e depth effect) {env : Environment F}
    (hWithin : (evaluateWithin registry budget e env).result ≠ .error .depthExceeded) :
    depth ≤ budget :=
  Nat.le_of_not_lt fun hLess => hWithin ((hEffect.exceeds_iff budget env).2 hLess)

/-- An expression has only one effect, of one depth. -/
theorem unique {depth' : Nat} {effect' : Effect F} (hEffect : HasEffect registry e depth effect)
    (hEffect' : HasEffect registry e depth' effect') : depth' = depth ∧ effect' = effect := by
  have hLess (budget : Nat) : budget < depth ↔ budget < depth' :=
    (hEffect.exceeds_iff budget .empty).symm.trans (hEffect'.exceeds_iff budget .empty)
  obtain rfl : depth' = depth := by
    have hDepth := hLess depth
    have hDepth' := hLess depth'
    omega
  refine ⟨rfl, Effect.eq_of_outcome_eq .empty ?_⟩
  rw [← hEffect.evaluateWithin_eq (Nat.le_refl _), ← hEffect'.evaluateWithin_eq (Nat.le_refl _)]

end HasEffect

end Lisp
