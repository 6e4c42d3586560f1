import Lisp.Proofs.Eval.Form
import Lisp.Proofs.Reader.RoundTrip
import Mathlib.Data.List.Basic

/-! Evaluation with the forms of the language selects parts of the expression and makes nothing
new. Values, and the expressions that an error names, are parts of what is evaluated, and the
environment is handed on as it is. -/

namespace Lisp

variable {F : Type}

/-- One expression occurs in another, as the whole of it or somewhere in a pair. -/
inductive Expr.IsPart : Expr F → Expr F → Prop where
  | refl (e : Expr F) : IsPart e e
  | head {e head : Expr F} (tail : Expr F) (hPart : IsPart e head) : IsPart e (.pair head tail)
  | tail {e tail : Expr F} (head : Expr F) (hPart : IsPart e tail) : IsPart e (.pair head tail)

namespace Expr

theorem IsPart.isReadable {e whole : Expr F} (hPart : IsPart e whole)
    (hReadable : whole.isReadable = true) : e.isReadable = true := by
  induction hPart with
  | refl => exact hReadable
  | head tail hPart ih =>
      simp only [Expr.isReadable, Bool.and_eq_true] at hReadable
      exact ih hReadable.1
  | tail head hPart ih =>
      simp only [Expr.isReadable, Bool.and_eq_true] at hReadable
      exact ih hReadable.2

theorem isPart_condition (condition consequent alternative : Expr F) :
    IsPart condition (conditional condition consequent alternative) :=
  .tail _ (.head _ (.refl _))

theorem isPart_consequent (condition consequent alternative : Expr F) :
    IsPart consequent (conditional condition consequent alternative) :=
  .tail _ (.tail _ (.head _ (.refl _)))

theorem isPart_alternative (condition consequent alternative : Expr F) :
    IsPart alternative (conditional condition consequent alternative) :=
  .tail _ (.tail _ (.tail _ (.head _ (.refl _))))

theorem IsPart.trans {a b c : Expr F} (hFirst : IsPart a b) (hSecond : IsPart b c) :
    IsPart a c := by
  induction hSecond with
  | refl => exact hFirst
  | head tail hPart ih => exact .head tail ih
  | tail head hPart ih => exact .tail head ih

end Expr

namespace Registry

theorem get?_builtin (name : Text) :
    (builtin : Registry F).get? name = if name = ['i', 'f'] then some .conditional else none := by
  rw [builtin, Bindings.ofList, Bindings.insertAll]
  simp

/-- The form of the language applies to conditionals and to nothing else. -/
theorem eq_conditional_of_dispatch? {e : Expr F} {form : SpecialForm F} {operands : List (Expr F)}
    (hDispatch : builtin.dispatch? e = some (form, operands)) :
    form = .conditional ∧ ∃ condition consequent alternative,
      operands = [condition, consequent, alternative] ∧
        e = .conditional condition consequent alternative := by
  obtain ⟨name, hName, hArity, rfl⟩ := dispatch?_eq_some_iff.1 hDispatch
  rw [get?_builtin, Option.ite_none_right_eq_some, Option.some.injEq] at hName
  obtain ⟨rfl, rfl⟩ := hName
  obtain ⟨condition, consequent, alternative, rfl⟩ := List.length_eq_three.1 hArity
  exact ⟨rfl, condition, consequent, alternative, rfl, rfl⟩

end Registry

/-- What evaluating an expression leads to with the form of the language. Nothing is
recorded. -/
inductive SelectsPart (e : Expr F) (env : Environment F) : Outcome F (Evaluated F) → Prop where
  | value {v : Expr F} (hPart : v.IsPart e) : SelectsPart e env ⟨[], .ok (v, env)⟩
  | mismatch {form v : Expr F} (hForm : form.IsPart e) (hValue : v.IsPart e) :
      SelectsPart e env ⟨[], .error (.typeMismatch form v)⟩
  | tooDeep : SelectsPart e env ⟨[], .error .depthExceeded⟩
  | notExpression {value : F} (hPart : (Expr.host value).IsPart e) :
      SelectsPart e env ⟨[], .error (.notExpression value)⟩

/-- The errors that the form of the language can lead to. -/
def EvalError.isOfBuiltin : EvalError F → Bool
  | typeMismatch _ _ | depthExceeded => true
  | name _ | notExpression _ => false

namespace SelectsPart

variable {e : Expr F} {env : Environment F}

theorem recorded_eq_nil {outcome : Outcome F (Evaluated F)}
    (hSelects : SelectsPart e env outcome) : outcome.recorded = [] := by
  cases hSelects <;> rfl

/-- An expression that the reader can make has only errors of the language, and there is a text
for each of them. -/
theorem exists_message [HostValue F] {recorded : List (Expr F)} {err : EvalError F}
    (hSelects : SelectsPart e env ⟨recorded, .error err⟩) (hReadable : e.isReadable = true) :
    err.isOfBuiltin = true ∧ ∃ message, err.message = .ok message := by
  cases hSelects with
  | tooDeep => exact ⟨rfl, _, rfl⟩
  | mismatch hForm hValue =>
      obtain ⟨formText, hFormText, -⟩ := exists_print_of_isReadable (hForm.isReadable hReadable)
      obtain ⟨valueText, hValueText, -⟩ := exists_print_of_isReadable (hValue.isReadable hReadable)
      rw [EvalError.message, hFormText, hValueText]
      exact ⟨rfl, _, rfl⟩
  | notExpression hPart => cases hPart.isReadable hReadable

theorem trans {part : Expr F} {outcome : Outcome F (Evaluated F)}
    (hSelects : SelectsPart part env outcome) (hPart : part.IsPart e) :
    SelectsPart e env outcome := by
  cases hSelects with
  | value hValue => exact .value (hValue.trans hPart)
  | mismatch hForm hValue => exact .mismatch (hForm.trans hPart) (hValue.trans hPart)
  | tooDeep => exact .tooDeep
  | notExpression hValue => exact .notExpression (hValue.trans hPart)

end SelectsPart

/-- The form selects a part if the evaluation nested in it does. -/
theorem selectsPart_conditional {eval : Evaluator F} {env : Environment F}
    (hEval : ∀ e, SelectsPart e env (eval e env)) (condition consequent alternative : Expr F) :
    SelectsPart (.conditional condition consequent alternative) env
      (SpecialForm.conditional.run eval (.conditional condition consequent alternative)
        [condition, consequent, alternative] env) := by
  have hCondition := hEval condition
  generalize hOutcome : eval condition env = outcome at hCondition
  cases hCondition with
  | mismatch hForm hValue =>
      rw [SpecialForm.run_conditional_of_error hOutcome]
      exact .mismatch (hForm.trans (Expr.isPart_condition ..))
        (hValue.trans (Expr.isPart_condition ..))
  | tooDeep =>
      rw [SpecialForm.run_conditional_of_error hOutcome]
      exact .tooDeep
  | notExpression hPart =>
      rw [SpecialForm.run_conditional_of_error hOutcome]
      exact .notExpression (hPart.trans (Expr.isPart_condition ..))
  | @value v hPart =>
      by_cases hBool : ∃ choice, v = .bool choice
      · obtain ⟨choice, rfl⟩ := hBool
        rw [SpecialForm.run_conditional_of_bool hOutcome rfl, List.nil_append]
        cases choice with
        | true => exact (hEval consequent).trans (Expr.isPart_consequent ..)
        | false => exact (hEval alternative).trans (Expr.isPart_alternative ..)
      · rw [SpecialForm.run_conditional_of_ne_bool hOutcome (not_exists.1 hBool)]
        exact .mismatch (.refl _) (hPart.trans (Expr.isPart_condition ..))

/-- Evaluation selects a part, whatever the budget. -/
theorem selectsPart_evaluateWithin (budget : Nat) (e : Expr F) (env : Environment F) :
    SelectsPart e env (evaluateWithin .builtin budget e env) := by
  induction budget generalizing e with
  | zero => exact .tooDeep
  | succ budget ih =>
      unfold evaluateWithin
      cases hDispatch : Registry.builtin.dispatch? e with
      | none =>
          cases e with
          | host value => exact .notExpression (.refl _)
          | _ => exact .value (.refl _)
      | some found =>
          obtain ⟨form, operands⟩ := found
          obtain ⟨rfl, condition, consequent, alternative, rfl, rfl⟩ :=
            Registry.eq_conditional_of_dispatch? hDispatch
          exact selectsPart_conditional ih condition consequent alternative

/-- An expression that the reader can make has a value that it can make too, or an error with a
text. -/
theorem evaluateWithin_builtin_cases [HostValue F] {e : Expr F} (budget : Nat)
    (env : Environment F) (hReadable : e.isReadable = true) :
    (∃ v, evaluateWithin .builtin budget e env = ⟨[], .ok (v, env)⟩ ∧ v.isReadable = true) ∨
      ∃ err message, evaluateWithin .builtin budget e env = ⟨[], .error err⟩ ∧
        err.isOfBuiltin = true ∧ err.message = .ok message := by
  have hSelects := selectsPart_evaluateWithin budget e env
  rcases hEval : evaluateWithin .builtin budget e env with ⟨recorded, err | ⟨v, env'⟩⟩
  · rw [hEval] at hSelects
    obtain ⟨hKind, message, hMessage⟩ := hSelects.exists_message hReadable
    obtain rfl := hSelects.recorded_eq_nil
    exact .inr ⟨err, message, rfl, hKind, hMessage⟩
  · rw [hEval] at hSelects
    cases hSelects with
    | value hPart => exact .inl ⟨v, rfl, hPart.isReadable hReadable⟩

end Lisp
