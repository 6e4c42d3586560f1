import Lisp.Environment

/-! What an evaluation leads to. Tags that are recorded before an error stay recorded,
which is why the record is kept beside the result. -/

namespace Lisp

/-- Why an evaluation fails. -/
inductive EvalError (F : Type) where
  /-- The condition of this conditional has this value, which is no boolean. -/
  | typeMismatch (form value : Expr F)
  /-- Evaluations are nested too deeply. -/
  | depthExceeded
  /-- A name cannot be bound or looked up. -/
  | name (err : NameError F)
  /-- A host value stands where an expression is to be evaluated. -/
  | notExpression (value : F)

namespace EvalError

/-- What is wrong. An expression in the message may be what cannot be written. To
evaluate a host value is the same fault as to print it. -/
def message {F : Type} [HostValue F] : EvalError F → Except (PrintError F) Text
  | typeMismatch form value => do
    let formText ← form.print
    let valueText ← value.print
    return "type mismatch: condition of ".toList ++ formText ++ " evaluated to ".toList ++
      valueText ++ ", expected #t or #f".toList
  | depthExceeded => .ok "expression nesting too deep to evaluate".toList
  | name err => err.message
  | notExpression value => .error (.hostValue value)

end EvalError

/-- What an evaluation leads to: a result or an error, and in either case the tags that
were recorded on the way, the oldest first. -/
structure Outcome (F α : Type) where
  recorded : List (Expr F)
  result : Except (EvalError F) α

namespace Outcome

variable {F α β : Type}

/-- Fail with an error. -/
def fail (err : EvalError F) : Outcome F α := ⟨[], .error err⟩

/-- Record a tag. -/
def record (tag : Expr F) : Outcome F Unit := ⟨[tag], .ok ()⟩

/-- Take over a result about names. -/
def ofName : Except (NameError F) α → Outcome F α
  | .ok a => ⟨[], .ok a⟩
  | .error err => fail (.name err)

/-- Go on after a result. After an error nothing more is done, but what was recorded
before it stays. -/
def andThen (x : Outcome F α) (next : α → Outcome F β) : Outcome F β :=
  match x.result with
  | .ok a => ⟨x.recorded ++ (next a).recorded, (next a).result⟩
  | .error err => ⟨x.recorded, .error err⟩

instance : Monad (Outcome F) where
  pure a := ⟨[], .ok a⟩
  bind := andThen

end Outcome

/-- A value and the environment to carry on with. -/
abbrev Evaluated (F : Type) := Expr F × Environment F

/-- A way to evaluate an expression in an environment. -/
abbrev Evaluator (F : Type) := Expr F → Environment F → Outcome F (Evaluated F)

end Lisp
