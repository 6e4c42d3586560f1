import Lisp.Eval.Evaluate
import Lisp.Proofs.Expr.Spine

/-! What evaluation takes for a special form: the name of a form at the head of a proper list with
as many operands as the form has. A form is run on its operands, and all else is data. What
running a form leads to is said for each way in which the evaluations nested in it end. -/

namespace Lisp

variable {F : Type}

namespace Expr

/-- The list of a name and the operands after it. -/
def form (name : Text) (operands : List (Expr F)) : Expr F := .ofList (.symbol name :: operands)

/-- A list that is a conditional of the language. -/
def conditional (condition consequent alternative : Expr F) : Expr F :=
  .ofList [.symbol ['i', 'f'], condition, consequent, alternative]

theorem size_lt_size_ofList {e : Expr F} {items : List (Expr F)} (hMem : e ∈ items) :
    e.size < (ofList items).size := by
  induction items with
  | nil => cases hMem
  | cons first rest ih =>
      rw [ofList_cons, size]
      rcases List.mem_cons.1 hMem with rfl | hMem
      · omega
      · have hRest := ih hMem
        omega

/-- Operands are smaller than the form they belong to. -/
theorem size_lt_size_form {name : Text} {e : Expr F} {operands : List (Expr F)}
    (hMem : e ∈ operands) : e.size < (form name operands).size :=
  size_lt_size_ofList (List.mem_cons_of_mem _ hMem)

end Expr

namespace SpecialForm

variable {eval : Evaluator F} {env left : Environment F} {whole value : Expr F}
  {recorded : List (Expr F)}

section Conditional

variable {condition consequent alternative : Expr F}

theorem run_conditional_of_bool {choice : Bool} {recorded' : List (Expr F)}
    {result : Except (EvalError F) (Evaluated F)}
    (hCondition : eval condition env = ⟨recorded, .ok (.bool choice, left)⟩)
    (hBranch : eval (if choice then consequent else alternative) env = ⟨recorded', result⟩) :
    conditional.run eval whole [condition, consequent, alternative] env =
      ⟨recorded ++ recorded', result⟩ := by
  cases choice with
  | true =>
      have hSelected : eval consequent env = ⟨recorded', result⟩ := hBranch
      simp only [conditional, bind, Outcome.andThen, hCondition, hSelected]
  | false =>
      have hSelected : eval alternative env = ⟨recorded', result⟩ := hBranch
      simp only [conditional, bind, Outcome.andThen, hCondition, hSelected]

theorem run_conditional_of_ne_bool
    (hCondition : eval condition env = ⟨recorded, .ok (value, left)⟩)
    (hValue : ∀ choice, value ≠ .bool choice) :
    conditional.run eval whole [condition, consequent, alternative] env =
      ⟨recorded, .error (.typeMismatch whole value)⟩ := by
  simp only [conditional, bind, Outcome.andThen, hCondition]
  cases value with
  | bool choice => exact absurd rfl (hValue choice)
  | _ => simp only [Outcome.fail, List.append_nil]

theorem run_conditional_of_error {err : EvalError F}
    (hCondition : eval condition env = ⟨recorded, .error err⟩) :
    conditional.run eval whole [condition, consequent, alternative] env =
      ⟨recorded, .error err⟩ := by
  simp only [conditional, bind, Outcome.andThen, hCondition]

end Conditional

section Binding

variable {target operand : Expr F}

theorem run_binding_of_symbol {name : Text}
    (hOperand : eval operand env = ⟨recorded, .ok (value, left)⟩) :
    binding.run eval whole [.symbol name, operand] env =
      ⟨recorded, .ok (value, left.bindName name value)⟩ := by
  simp only [binding, bind, Outcome.andThen, hOperand]
  exact congrArg (Outcome.mk · _) (List.append_nil recorded)

theorem run_binding_of_ne_symbol
    (hOperand : eval operand env = ⟨recorded, .ok (value, left)⟩)
    (hTarget : ∀ name, target ≠ .symbol name) :
    binding.run eval whole [target, operand] env =
      ⟨recorded, .error (.name (.notSymbol target))⟩ := by
  simp only [binding, bind, Outcome.andThen, hOperand]
  cases target with
  | symbol name => exact absurd rfl (hTarget name)
  | _ => exact congrArg (Outcome.mk · _) (List.append_nil recorded)

theorem run_binding_of_error {err : EvalError F}
    (hOperand : eval operand env = ⟨recorded, .error err⟩) :
    binding.run eval whole [target, operand] env = ⟨recorded, .error err⟩ := by
  simp only [binding, bind, Outcome.andThen, hOperand]

end Binding

theorem run_recording (tag : Expr F) :
    recording.run eval whole [tag] env = ⟨[tag], .ok (tag, env)⟩ := rfl

end SpecialForm

variable {registry : Registry F}

/-- A proper list headed by the name of a form is that form, if it has as many operands. -/
theorem Registry.dispatch?_form {name : Text} {form : SpecialForm F}
    (hName : registry.get? name = some form) (operands : List (Expr F)) :
    registry.dispatch? (.form name operands) =
      if operands.length = form.arity then some (form, operands) else none := by
  have hItems : (Expr.ofList operands).items? = some operands := Expr.items?_eq_some_iff.2 rfl
  rw [Expr.form, Expr.ofList_cons, dispatch?]
  simp only [hName, hItems, Option.bind_eq_bind, Option.bind_some]

theorem Registry.dispatch?_eq_some_iff {e : Expr F} {form : SpecialForm F}
    {operands : List (Expr F)} :
    registry.dispatch? e = some (form, operands) ↔
      ∃ name, registry.get? name = some form ∧ operands.length = form.arity ∧
        e = .form name operands := by
  constructor
  · intro hDispatch
    unfold dispatch? at hDispatch
    split at hDispatch
    · rename_i name tail
      obtain ⟨found, hFound, hDispatch⟩ := Option.bind_eq_some_iff.1 hDispatch
      obtain ⟨items, hItems, hDispatch⟩ := Option.bind_eq_some_iff.1 hDispatch
      rw [Option.ite_none_right_eq_some, Option.some.injEq, Prod.mk.injEq] at hDispatch
      obtain ⟨hArity, rfl, rfl⟩ := hDispatch
      rw [Expr.items?_eq_some_iff] at hItems
      exact ⟨name, hFound, hArity, by rw [hItems]; rfl⟩
    · cases hDispatch
  · rintro ⟨name, hName, hArity, rfl⟩
    rw [dispatch?_form hName, if_pos hArity]

theorem evaluateWithin_form {name : Text} {form : SpecialForm F} {operands : List (Expr F)}
    (hName : registry.get? name = some form) (hArity : operands.length = form.arity)
    (budget : Nat) (env : Environment F) :
    evaluateWithin registry (budget + 1) (.form name operands) env =
      form.run (evaluateWithin registry budget) (.form name operands) operands env := by
  have hDispatch := Registry.dispatch?_eq_some_iff.2 ⟨name, hName, hArity, rfl⟩
  unfold evaluateWithin
  rw [hDispatch]

theorem evaluateWithin_of_dispatch?_eq_none {e : Expr F} (hData : registry.dispatch? e = none)
    (hExpr : ∀ value, e ≠ .host value) (budget : Nat) (env : Environment F) :
    evaluateWithin registry (budget + 1) e env = ⟨[], .ok (e, env)⟩ := by
  unfold evaluateWithin
  rw [hData]
  cases e with
  | host value => exact absurd rfl (hExpr value)
  | _ => rfl

end Lisp
