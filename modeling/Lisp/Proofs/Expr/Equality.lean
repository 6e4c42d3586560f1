import Lisp.Expr.Basic

/-! Comparing two expressions side by side finds out whether they are the same tree. Where host
values are only equivalent, so are the expressions. -/

namespace Lisp.Expr

variable {F : Type} [BEq F]

section

variable [EquivBEq F] {a b c : Expr F}

theorem same_refl (a : Expr F) : a.same a = true := by
  induction a with
  | pair head tail ihHead ihTail => rw [same, ihHead, ihTail, Bool.and_self]
  | _ => simp [same]

theorem same_symm (hSame : a.same b = true) : b.same a = true := by
  induction a generalizing b with
  | pair head tail ihHead ihTail =>
      cases b with
      | pair head' tail' =>
          rw [same, Bool.and_eq_true] at hSame ⊢
          exact ⟨ihHead hSame.1, ihTail hSame.2⟩
      | _ => cases hSame
  | host value =>
      cases b with
      | host value' => exact BEq.symm hSame
      | _ => cases hSame
  | _ => cases b <;> simp_all [same]

theorem same_trans (hFirst : a.same b = true) (hSecond : b.same c = true) : a.same c = true := by
  induction a generalizing b c with
  | pair head tail ihHead ihTail =>
      cases b with
      | pair head' tail' =>
          cases c with
          | pair head'' tail'' =>
              rw [same, Bool.and_eq_true] at hFirst hSecond ⊢
              exact ⟨ihHead hFirst.1 hSecond.1, ihTail hFirst.2 hSecond.2⟩
          | _ => cases hSecond
      | _ => cases hFirst
  | host value =>
      cases b with
      | host value' =>
          cases c with
          | host value'' => exact BEq.trans hFirst hSecond
          | _ => cases hSecond
      | _ => cases hFirst
  | _ => cases b <;> simp_all [same]

instance : EquivBEq (Expr F) where
  symm := same_symm
  trans := same_trans
  rfl := same_refl _

end

section

variable [LawfulBEq F]

theorem same_eq_true_iff (a b : Expr F) : a.same b = true ↔ a = b := by
  induction a generalizing b with
  | pair head tail ihHead ihTail =>
      cases b <;> simp [same, ihHead, ihTail]
  | _ => cases b <;> simp [same]

instance : LawfulBEq (Expr F) where
  eq_of_beq h := (same_eq_true_iff _ _).1 h
  rfl := (same_eq_true_iff _ _).2 rfl

instance : DecidableEq (Expr F) := instDecidableEqOfLawfulBEq

end

end Lisp.Expr
