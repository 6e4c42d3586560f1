import Lisp.Eval.Outcome

/-! The special forms and the registries that hold them. A form is given its operands
unevaluated and decides itself what to evaluate and in which environment. -/

namespace Lisp

/-- A rule for lists that begin with a certain name and have a certain number of operands.
`run` is given a way to evaluate what is nested in the form, the form as a whole, its
operands, and the environment. -/
structure SpecialForm (F : Type) where
  arity : Nat
  run : Evaluator F → (form : Expr F) → (operands : List (Expr F)) → Environment F →
    Outcome F (Evaluated F)

namespace SpecialForm

variable {F : Type}

/-- Choose between two branches. The condition must have a boolean value, and only this
value is used: what the condition binds is dropped. The branch is evaluated in the
environment of the form, and what it binds is kept. -/
def conditional : SpecialForm F where
  arity := 3
  run eval form operands env :=
    match operands with
    | [condition, consequent, alternative] => do
      let (value, _) ← eval condition env
      match value with
      | .bool true => eval consequent env
      | .bool false => eval alternative env
      | value => .fail (.typeMismatch form value)
    | _ => pure (form, env)

/-- Bind a name, which is not evaluated, to the value of an operand. -/
def binding : SpecialForm F where
  arity := 2
  run eval form operands env :=
    match operands with
    | [name, operand] => do
      let (value, env) ← eval operand env
      let env ← Outcome.ofName (env.bind name value)
      return (value, env)
    | _ => pure (form, env)

/-- Record the operand, which is not evaluated and is the value too. -/
def recording : SpecialForm F where
  arity := 1
  run _ form operands env :=
    match operands with
    | [tag] => do
      Outcome.record tag
      return (tag, env)
    | _ => pure (form, env)

end SpecialForm

/-- The special forms by the names that lists begin with. -/
abbrev Registry (F : Type) := Bindings (SpecialForm F)

namespace Registry

variable {F : Type}

/-- The forms of the language itself: there is one, `if`. -/
def builtin : Registry F := .ofList [(['i', 'f'], SpecialForm.conditional)]

/-- The registry with more forms. The last form of a name counts. -/
def extend (registry : Registry F) (extra : List (Text × SpecialForm F)) : Registry F :=
  registry.insertAll extra

/-- The form that an expression is, and its operands. It must be a proper list headed by
the name of a form, with as many operands as the form has. All else is inert data. -/
def dispatch? (registry : Registry F) : Expr F → Option (SpecialForm F × List (Expr F))
  | .pair (.symbol name) tail => do
    let form ← registry.get? name
    let operands ← tail.items?
    if operands.length = form.arity then some (form, operands) else none
  | _ => none

end Registry

end Lisp
