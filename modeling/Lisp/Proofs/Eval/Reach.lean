import Lisp.Proofs.Eval.Extension
import Lisp.Proofs.Eval.Replacement

/-! How far an evaluation reaches into an expression. From a form it goes into the condition, into
the branch that the condition selects, and into the operand of a binding. Data, tags and branches
that are not selected are not looked into. The depth of an expression is that of the longest way. -/

namespace Lisp

variable {F : Type}

/-- A way from a form into what is evaluated in it. -/
inductive Turn where
  | condition
  | branch
  | operand

/-- To evaluate the first expression is to evaluate the second one in it, which is got to by this
turn. The environment stays the same: what a condition binds is dropped, and an operand is evaluated
before its name is bound. -/
inductive Nested (registry : Registry F) (env : Environment F) : Turn → Expr F → Expr F → Prop where
  | condition {name : Text} (hName : registry.get? name = some .conditional)
      (condition consequent alternative : Expr F) :
      Nested registry env .condition (.form name [condition, consequent, alternative]) condition
  | branch {name : Text} {condition : Expr F} {choice : Bool}
      (hName : registry.get? name = some .conditional)
      (hSelects : HasValue registry env condition (.bool choice))
      (consequent alternative : Expr F) :
      Nested registry env .branch (.form name [condition, consequent, alternative])
        (if choice then consequent else alternative)
  | operand {name : Text} (hName : registry.get? name = some .binding) (target operand : Expr F) :
      Nested registry env .operand (.form name [target, operand]) operand

/-- Evaluation of the first expression reaches the second one by these turns, the outermost
first. -/
inductive Reaches (registry : Registry F) (env : Environment F) :
    Expr F → List Turn → Expr F → Prop where
  | refl (e : Expr F) : Reaches registry env e [] e
  | turn {e inner reached : Expr F} {turn : Turn} {path : List Turn}
      (hNested : Nested registry env turn e inner)
      (hReaches : Reaches registry env inner path reached) :
      Reaches registry env e (turn :: path) reached

variable {registry : Registry F} {env : Environment F} {turn : Turn} {e inner : Expr F}

theorem Expr.form_inj {name name' : Text} {operands operands' : List (Expr F)} :
    form name operands = form name' operands' ↔ name = name' ∧ operands = operands' := by
  constructor
  · intro hForm
    obtain ⟨hName, hTail⟩ := Expr.pair.inj hForm
    have hItems : (ofList operands).items? = some operands := items?_eq_some_iff.2 rfl
    have hItems' : (ofList operands').items? = some operands' := items?_eq_some_iff.2 rfl
    have hTail : ofList operands = ofList operands' := hTail
    rw [hTail, hItems'] at hItems
    exact ⟨Expr.symbol.inj hName, (Option.some.inj hItems).symm⟩
  · rintro ⟨rfl, rfl⟩
    rfl

namespace Nested

/-- What is evaluated in a form is one of its operands. -/
theorem exists_mem (hNested : Nested registry env turn e inner) :
    ∃ name operands, e = .form name operands ∧ inner ∈ operands := by
  cases hNested with
  | condition hName condition consequent alternative => exact ⟨_, _, rfl, by simp⟩
  | branch hName hSelects consequent alternative =>
      refine ⟨_, _, rfl, ?_⟩
      split <;> simp
  | operand hName target operand => exact ⟨_, _, rfl, by simp⟩

theorem size_lt (hNested : Nested registry env turn e inner) : inner.size < e.size := by
  obtain ⟨name, operands, rfl, hMem⟩ := hNested.exists_mem
  exact Expr.size_lt_size_form hMem

theorem isPart (hNested : Nested registry env turn e inner) : inner.IsPart e := by
  obtain ⟨name, operands, rfl, hMem⟩ := hNested.exists_mem
  exact Expr.isPart_form_of_mem hMem

end Nested

namespace Reaches

variable {path : List Turn} {reached : Expr F}

theorem isPart (hReaches : Reaches registry env e path reached) : reached.IsPart e := by
  induction hReaches with
  | refl e => exact .refl e
  | turn hNested hReaches ih => exact ih.trans hNested.isPart

/-- Every turn leads to a smaller expression. -/
theorem length_lt_size (hReaches : Reaches registry env e path reached) : path.length < e.size := by
  induction hReaches with
  | refl e => exact e.size_pos
  | turn hNested hReaches ih =>
      have hSize := hNested.size_lt
      rw [List.length_cons]
      omega

end Reaches
end Lisp
