import Lisp.Proofs.Eval.Budget
import Lisp.Proofs.Expr.Equality

/-! Who is to blame for a type mismatch. Evaluation fails with one exactly if it reaches a
conditional whose condition has a value that is no boolean. There is at most one place where it
does, and the error names the conditional that stands there. -/

namespace Lisp

variable {F : Type} {registry : Registry F} {env : Environment F} {turn : Turn} {path : List Turn}
  {e inner form value : Expr F} {err : EvalError F}

/-- Evaluation fails with this error, unless the budget is too small. -/
def Fails (registry : Registry F) (e : Expr F) (err : EvalError F) : Prop :=
  ∃ depth recorded, HasEffect registry e depth ⟨recorded, .error err⟩

/-- A conditional whose condition has this value, which is no boolean. -/
def IsMismatch (registry : Registry F) (env : Environment F) (form value : Expr F) : Prop :=
  ∃ name condition consequent alternative, registry.get? name = some .conditional ∧
    form = .form name [condition, consequent, alternative] ∧
    HasValue registry env condition value ∧ ∀ choice, value ≠ .bool choice

/-- Evaluation of an expression reaches a conditional by these turns whose condition has this value,
which is no boolean. -/
def MismatchAt (registry : Registry F) (env : Environment F) (e : Expr F) (path : List Turn)
    (form value : Expr F) : Prop :=
  Reaches registry env e path form ∧ IsMismatch registry env form value

namespace Fails

theorem unique {err' : EvalError F} (hFails : Fails registry e err)
    (hFails' : Fails registry e err') : err' = err := by
  obtain ⟨depth, recorded, hEffect⟩ := hFails
  obtain ⟨depth', recorded', hEffect'⟩ := hFails'
  cases (hEffect.unique hEffect').2
  rfl

theorem not_hasValue (hBasic : registry.IsBasic) (hFails : Fails registry e err) :
    ¬ HasValue registry env e value := by
  intro hValue
  obtain ⟨depth, recorded, hEffect⟩ := hFails
  obtain ⟨depth', recorded', bindings, hEffect'⟩ := hValue.exists_hasEffect hBasic
  cases (hEffect.unique hEffect').2

end Fails

namespace Nested

/-- There are two ways into a list with three operands. -/
theorem inv_conditional {name : Text} {condition consequent alternative : Expr F}
    (hNested : Nested registry env turn (.form name [condition, consequent, alternative]) inner) :
    (turn = .condition ∧ inner = condition) ∨ (turn = .branch ∧ ∃ choice,
      HasValue registry env condition (.bool choice) ∧
        inner = if choice then consequent else alternative) := by
  generalize hForm : Expr.form name [condition, consequent, alternative] = whole at hNested
  cases hNested with
  | condition hName condition' consequent' alternative' =>
      obtain ⟨rfl, hOperands⟩ := Expr.form_inj.1 hForm
      cases hOperands
      exact .inl ⟨rfl, rfl⟩
  | branch hName hSelects consequent' alternative' =>
      obtain ⟨rfl, hOperands⟩ := Expr.form_inj.1 hForm
      cases hOperands
      exact .inr ⟨rfl, _, hSelects, rfl⟩
  | operand hName target operand =>
      obtain ⟨rfl, hOperands⟩ := Expr.form_inj.1 hForm
      cases hOperands

/-- There is one way into a list with two operands. -/
theorem inv_binding {name : Text} {target operand : Expr F}
    (hNested : Nested registry env turn (.form name [target, operand]) inner) :
    turn = .operand ∧ inner = operand := by
  generalize hForm : Expr.form name [target, operand] = whole at hNested
  cases hNested with
  | condition | branch =>
      obtain ⟨rfl, hOperands⟩ := Expr.form_inj.1 hForm
      cases hOperands
  | operand hName target' operand' =>
      obtain ⟨rfl, hOperands⟩ := Expr.form_inj.1 hForm
      cases hOperands
      exact ⟨rfl, rfl⟩

/-- A failure of what is evaluated in an expression is a failure of the expression. -/
theorem fails (hBasic : registry.IsBasic) (hNested : Nested registry env turn e inner)
    (hFails : Fails registry inner err) : Fails registry e err := by
  obtain ⟨depth, recorded, hEffect⟩ := hFails
  cases hNested with
  | condition hName condition consequent alternative =>
      exact ⟨_, _, .conditionFails hName hEffect consequent alternative⟩
  | branch hName hSelects consequent alternative =>
      obtain ⟨depth', recorded', dropped, hCondition⟩ := hSelects.exists_hasEffect hBasic
      exact ⟨_, _, .conditional hName hCondition hEffect⟩
  | operand hName target operand => exact ⟨_, _, .operandFails hName target hEffect⟩

/-- Of what is evaluated in an expression no more than one fails: a branch is only evaluated if the
condition has not failed. -/
theorem eq_of_fails (hBasic : registry.IsBasic) {turn' : Turn} {inner' : Expr F}
    {err' : EvalError F} (hNested : Nested registry env turn e inner)
    (hFails : Fails registry inner err) (hNested' : Nested registry env turn' e inner')
    (hFails' : Fails registry inner' err') : turn' = turn ∧ inner' = inner := by
  cases hNested with
  | condition hName condition consequent alternative =>
      rcases hNested'.inv_conditional with hSame | ⟨-, choice, hSelects, -⟩
      · exact hSame
      · exact absurd hSelects (hFails.not_hasValue hBasic)
  | branch hName hSelects consequent alternative =>
      rcases hNested'.inv_conditional with ⟨-, rfl⟩ | ⟨rfl, choice', hSelects', rfl⟩
      · exact absurd hSelects (hFails'.not_hasValue hBasic)
      · cases HasValue.unique hBasic hSelects hSelects'
        exact ⟨rfl, rfl⟩
  | operand hName target operand => exact hNested'.inv_binding

end Nested

theorem Reaches.fails (hBasic : registry.IsBasic) {reached : Expr F}
    (hReaches : Reaches registry env e path reached) (hFails : Fails registry reached err) :
    Fails registry e err := by
  induction hReaches with
  | refl e => exact hFails
  | turn hNested hReaches ih => exact hNested.fails hBasic (ih hFails)

namespace IsMismatch

theorem fails (hBasic : registry.IsBasic) (hMismatch : IsMismatch registry env form value) :
    Fails registry form (.typeMismatch form value) := by
  obtain ⟨name, condition, consequent, alternative, hName, rfl, hValue, hBool⟩ := hMismatch
  obtain ⟨depth, recorded, dropped, hCondition⟩ := hValue.exists_hasEffect hBasic
  exact ⟨_, _, .mismatch hName hCondition hBool consequent alternative⟩

theorem eq_conditional (hMismatch : IsMismatch .builtin env form value) :
    ∃ condition consequent alternative,
      form = .conditional condition consequent alternative := by
  obtain ⟨name, condition, consequent, alternative, hName, rfl, -, -⟩ := hMismatch
  rw [Registry.get?_builtin, Option.ite_none_right_eq_some] at hName
  obtain ⟨rfl, -⟩ := hName
  exact ⟨condition, consequent, alternative, rfl⟩

/-- The value of the condition is a part of it. -/
theorem isPart_value (hMismatch : IsMismatch .builtin env form value) : value.IsPart form := by
  obtain ⟨name, condition, consequent, alternative, hName, rfl, hValue, -⟩ := hMismatch
  obtain ⟨budget, recorded, left, hEval⟩ := hValue
  have hSelects := selectsPart_evaluateWithin budget condition env
  rw [hEval] at hSelects
  cases hSelects with
  | value hPart => exact hPart.trans (Expr.isPart_form_of_mem (List.mem_cons_self ..))

/-- The conditional fails itself, and nothing that is evaluated in it does. -/
theorem not_fails_of_nested (hBasic : registry.IsBasic)
    (hMismatch : IsMismatch registry env form value)
    (hNested : Nested registry env turn form inner) : ¬ Fails registry inner err := by
  intro hFails
  obtain ⟨name, condition, consequent, alternative, hName, rfl, hValue, hBool⟩ := hMismatch
  rcases hNested.inv_conditional with ⟨-, rfl⟩ | ⟨-, choice, hSelects, -⟩
  · exact hFails.not_hasValue hBasic hValue
  · exact hBool choice (HasValue.unique hBasic hSelects hValue)

end IsMismatch

namespace MismatchAt

theorem fails (hBasic : registry.IsBasic) (hAt : MismatchAt registry env e path form value) :
    Fails registry e (.typeMismatch form value) :=
  hAt.1.fails hBasic (hAt.2.fails hBasic)

/-- There is only one way to a conditional at fault. Both ways are followed turn by turn: they cannot
part, and neither can end before the other. -/
theorem path_unique (hBasic : registry.IsBasic) {path' : List Turn} {form' value' : Expr F}
    (hAt : MismatchAt registry env e path form value)
    (hAt' : MismatchAt registry env e path' form' value') : path' = path := by
  obtain ⟨hReaches, hMismatch⟩ := hAt
  obtain ⟨hReaches', hMismatch'⟩ := hAt'
  have hFails := hMismatch.fails hBasic
  have hFails' := hMismatch'.fails hBasic
  induction hReaches generalizing path' with
  | refl e =>
      cases hReaches' with
      | refl => rfl
      | turn hNested' hRest' =>
          exact absurd (hRest'.fails hBasic hFails') (hMismatch.not_fails_of_nested hBasic hNested')
  | turn hNested hRest ih =>
      cases hReaches' with
      | refl =>
          exact absurd (hRest.fails hBasic hFails) (hMismatch'.not_fails_of_nested hBasic hNested)
      | turn hNested' hRest' =>
          obtain ⟨rfl, rfl⟩ := hNested.eq_of_fails hBasic (hRest.fails hBasic hFails) hNested'
            (hRest'.fails hBasic hFails')
          rw [ih hMismatch hRest' hFails]

/-- There is only one conditional at fault, in one place. -/
theorem unique (hBasic : registry.IsBasic) {path' : List Turn} {form' value' : Expr F}
    (hAt : MismatchAt registry env e path form value)
    (hAt' : MismatchAt registry env e path' form' value') :
    path' = path ∧ form' = form ∧ value' = value := by
  obtain ⟨hForm, hValue⟩ :=
    EvalError.typeMismatch.inj ((hAt.fails hBasic).unique (hAt'.fails hBasic))
  exact ⟨hAt.path_unique hBasic hAt', hForm, hValue⟩

end MismatchAt

/-- A type mismatch comes from a conditional that evaluation reaches. -/
theorem HasEffect.exists_mismatchAt {depth : Nat} {effect : Effect F}
    (hEffect : HasEffect registry e depth effect) (env : Environment F)
    (hResult : effect.result = .error (.typeMismatch form value)) :
    ∃ path, MismatchAt registry env e path form value := by
  induction hEffect with
  | mismatch hName hCondition hBool consequent alternative ih =>
      cases hResult
      exact ⟨[], .refl _, _, _, _, _, hName, rfl, hCondition.hasValue env, hBool⟩
  | operandFails hName target hOperand ih =>
      obtain ⟨path, hReaches, hMismatch⟩ := ih hResult
      exact ⟨_, .turn (.operand hName target _) hReaches, hMismatch⟩
  | conditionFails hName hCondition consequent alternative ih =>
      obtain ⟨path, hReaches, hMismatch⟩ := ih hResult
      exact ⟨_, .turn (.condition hName _ _ _) hReaches, hMismatch⟩
  | conditional hName hCondition hBranch ihCondition ihBranch =>
      obtain ⟨path, hReaches, hMismatch⟩ := ihBranch hResult
      exact ⟨_, .turn (.branch hName (hCondition.hasValue env) _ _) hReaches, hMismatch⟩
  | _ => cases hResult

theorem exists_mismatchAt_of_eq_error (hBasic : registry.IsBasic) {budget : Nat}
    {recorded : List (Expr F)}
    (hEval : evaluateWithin registry budget e env =
      ⟨recorded, .error (.typeMismatch form value)⟩) :
    ∃ path, MismatchAt registry env e path form value := by
  obtain ⟨depth, hEffect⟩ := exists_hasEffect_of_eq_error hBasic hEval nofun
  exact hEffect.exists_mismatchAt env rfl

section Builtin

variable {budget depth : Nat}

theorem Exceeds.evaluateWithin_builtin (hExceeds : Exceeds .builtin budget e env) :
    evaluateWithin .builtin budget e env = ⟨[], .error .depthExceeded⟩ := by
  have hRecorded := (selectsPart_evaluateWithin budget e env).recorded_eq_nil
  cases hEval : evaluateWithin .builtin budget e env with
  | mk recorded result =>
      rw [Exceeds, hEval] at hExceeds
      rw [hEval] at hRecorded
      exact congrArg₂ Outcome.mk hRecorded hExceeds

theorem Fails.evaluateWithin_builtin (hFails : Fails .builtin e err)
    (hEnough : ¬ Exceeds .builtin budget e env) :
    evaluateWithin .builtin budget e env = ⟨[], .error err⟩ := by
  obtain ⟨depth, recorded, hEffect⟩ := hFails
  have hDepth : depth ≤ budget := hEffect.depth_le hEnough
  have hRecorded := (selectsPart_evaluateWithin budget e env).recorded_eq_nil
  rw [hEffect.evaluateWithin_eq hDepth] at hRecorded ⊢
  exact congrArg (Outcome.mk · _) hRecorded

theorem HasEffect.evaluateWithin_builtin {recorded : List (Expr F)}
    {bindings : List (Text × Expr F)}
    (hEffect : HasEffect .builtin e depth ⟨recorded, .ok (value, bindings)⟩)
    (hDepth : depth ≤ budget) (env : Environment F) :
    evaluateWithin .builtin budget e env = ⟨[], .ok (value, env)⟩ := by
  have hSelects := selectsPart_evaluateWithin budget e env
  rw [hEffect.evaluateWithin_eq hDepth, Effect.outcome_ok] at hSelects ⊢
  generalize env.bindAll bindings = left at hSelects ⊢
  cases hSelects with
  | value hPart => rfl

/-- An expression that the reader can make fails with type mismatches alone, and they have a text. -/
theorem Fails.exists_typeMismatch [HostValue F] (hFails : Fails .builtin e err)
    (hReadable : e.isReadable = true) :
    ∃ form value message, err = .typeMismatch form value ∧ err.message = .ok message := by
  obtain ⟨depth, recorded, hEffect⟩ := hFails
  have hSelects := selectsPart_evaluateWithin depth e .empty
  rw [hEffect.evaluateWithin_eq (Nat.le_refl depth)] at hSelects
  obtain ⟨hKind, message, hMessage⟩ := hSelects.exists_message hReadable
  cases err with
  | typeMismatch form value => exact ⟨form, value, message, rfl, hMessage⟩
  | depthExceeded => exact absurd rfl hEffect.result_ne_depthExceeded
  | name err => cases hKind
  | notExpression value => cases hKind

theorem MismatchAt.exists_message [HostValue F] (hAt : MismatchAt .builtin env e path form value)
    (hReadable : e.isReadable = true) :
    ∃ message, (EvalError.typeMismatch form value).message = .ok message := by
  obtain ⟨_, _, message, -, hMessage⟩ :=
    (hAt.fails Registry.isBasic_builtin).exists_typeMismatch hReadable
  exact ⟨message, hMessage⟩

/-- Without a conditional at fault there is a value. -/
theorem HasEffect.exists_value_builtin [HostValue F] {effect : Effect F}
    (hEffect : HasEffect .builtin e depth effect) (hReadable : e.isReadable = true)
    (hNone : ∀ path form value, ¬ MismatchAt .builtin env e path form value) :
    ∃ value, ∀ budget, depth ≤ budget →
      evaluateWithin .builtin budget e env = ⟨[], .ok (value, env)⟩ := by
  rcases effect with ⟨recorded, err | ⟨value, bindings⟩⟩
  · obtain ⟨form, value, -, rfl, -⟩ :=
      Fails.exists_typeMismatch ⟨depth, recorded, hEffect⟩ hReadable
    obtain ⟨path, hAt⟩ := hEffect.exists_mismatchAt env rfl
    exact absurd hAt (hNone path form value)
  · exact ⟨value, fun budget hDepth => hEffect.evaluateWithin_builtin hDepth env⟩

/-- What an expression that was read comes to with the form of the language and enough budget. There
is at most one conditional in it, in one place, that evaluation reaches and whose condition has a
value that is no boolean. If there is one, evaluation fails, with a type mismatch that names it and
the value of its condition, and so does evaluation of this conditional on its own. If there is
none, evaluation leads to a value. -/
theorem evaluateWithin_builtin_eq_typeMismatch_iff [HostValue F] {source : Text}
    (hRead : e ∈ (readAll source).1) (env : Environment F) :
    ∃ depth,
      (∀ budget, budget < depth →
        evaluateWithin .builtin budget e env = ⟨[], .error .depthExceeded⟩) ∧
      (∀ path form value path' form' value', MismatchAt .builtin env e path form value →
        MismatchAt .builtin env e path' form' value' →
          path' = path ∧ form' = form ∧ value' = value) ∧
      (∀ form value budget, depth ≤ budget →
        (evaluateWithin .builtin budget e env = ⟨[], .error (.typeMismatch form value)⟩ ↔
          ∃ path, MismatchAt .builtin env e path form value)) ∧
      ((∀ path form value, ¬ MismatchAt .builtin env e path form value) →
        ∃ value, ∀ budget, depth ≤ budget →
          evaluateWithin .builtin budget e env = ⟨[], .ok (value, env)⟩) ∧
      ∀ path form value, MismatchAt .builtin env e path form value →
        form.IsPart e ∧
        (∃ condition consequent alternative,
          form = .conditional condition consequent alternative) ∧
        (∃ message, (EvalError.typeMismatch form value).message = .ok message) ∧
        ∀ budget, depth ≤ budget →
          evaluateWithin .builtin budget form env = ⟨[], .error (.typeMismatch form value)⟩ := by
  have hBasic : Registry.IsBasic (F := F) .builtin := Registry.isBasic_builtin
  have hReadable : e.isReadable = true := isReadable_of_mem_readAll rfl e hRead
  obtain ⟨depth, effect, hEffect⟩ := exists_hasEffect hBasic e
  have hEnough (budget : Nat) (hDepth : depth ≤ budget) : ¬ Exceeds .builtin budget e env :=
    fun hExceeds => Nat.not_lt_of_le hDepth ((hEffect.exceeds_iff budget env).1 hExceeds)
  refine ⟨depth, ?exceeded, ?unique, ?mismatch, hEffect.exists_value_builtin hReadable, ?form⟩
  case exceeded =>
    intro budget hLess
    exact Exceeds.evaluateWithin_builtin ((hEffect.exceeds_iff budget env).2 hLess)
  case unique =>
    intro path form value path' form' value' hAt hAt'
    exact hAt.unique hBasic hAt'
  case mismatch =>
    intro form value budget hDepth
    constructor
    · intro hEval
      exact exists_mismatchAt_of_eq_error hBasic hEval
    · rintro ⟨path, hAt⟩
      exact (hAt.fails hBasic).evaluateWithin_builtin (hEnough budget hDepth)
  case form =>
    intro path form value hAt
    refine ⟨hAt.1.isPart, hAt.2.eq_conditional, hAt.exists_message hReadable, ?_⟩
    intro budget hDepth
    apply (hAt.2.fails hBasic).evaluateWithin_builtin
    exact fun hExceeds => hEnough budget hDepth (hAt.1.exceeds hBasic hExceeds)

/-- The conditional at fault stands in the branch that the condition of the outermost one selects. -/
theorem evaluateWithin_builtin_eq_typeMismatch_iff_branch_of_condition :
    let source : Text := "(if (if #t (if 7 1 2) 3) 4 5)".toList
    let form : Datum := .conditional (.int 7) (.int 1) (.int 2)
    let e : Datum :=
      .conditional (.conditional (.bool true) form (.int 3)) (.int 4) (.int 5)
    (readAll source).1 = [e] ∧ MismatchAt .builtin .empty e [.condition, .branch] form (.int 7) ∧
      (∀ path' form' value', MismatchAt .builtin .empty e path' form' value' →
        path' = [.condition, .branch] ∧ form' = form ∧ value' = .int 7) ∧
      ∃ depth, ∀ budget, depth ≤ budget →
        evaluateWithin .builtin budget e .empty = ⟨[], .error (.typeMismatch form (.int 7))⟩ ∧
          evaluateWithin .builtin budget form .empty =
            ⟨[], .error (.typeMismatch form (.int 7))⟩ := by
  intro source form e
  have hRead : (readAll source).1 = [e] := by decide +kernel
  have hIf : (Registry.builtin (F := Empty)).get? ['i', 'f'] = some .conditional := rfl
  have hReaches : Reaches .builtin .empty e [.condition, .branch] form :=
    .turn (.condition hIf _ _ _) (.turn (.branch hIf ⟨1, _, _, rfl⟩ _ _) (.refl _))
  have hAt : MismatchAt .builtin .empty e [.condition, .branch] form (.int 7) :=
    ⟨hReaches, _, _, _, _, hIf, rfl, ⟨1, _, _, rfl⟩, nofun⟩
  obtain ⟨depth, -, hUnique, hIff, -, hForm⟩ :=
    evaluateWithin_builtin_eq_typeMismatch_iff (hRead ▸ List.mem_singleton_self e) .empty
  refine ⟨hRead, hAt, fun path' form' value' hAt' => hUnique _ _ _ _ _ _ hAt hAt', depth, ?_⟩
  intro budget hDepth
  exact ⟨(hIff form (.int 7) budget hDepth).2 ⟨_, hAt⟩, (hForm _ _ _ hAt).2.2.2 budget hDepth⟩

end Builtin

end Lisp
