import Lisp.Proofs.Eval.Blame

/-! How evaluation with the form of the language fails, whatever the expression. A type mismatch is
put into words as soon as it arises, and a number that is too long to be written has no text. Where
the conditional at fault holds one, the mismatch cannot be told. -/

namespace Lisp

namespace Expr

variable {F : Type}

/-- The expression holds a number that is too long to be written. -/
def HasLongNumber (e : Expr F) : Prop :=
  ∃ n, .int n ∈ e.leaves ∧ Numeral.maxDigits < (Numeral.digits n.natAbs).length

theorem IsPart.leaves_subset {e whole : Expr F} (hPart : e.IsPart whole) :
    e.leaves ⊆ whole.leaves := by
  induction hPart with
  | refl => exact List.Subset.refl _
  | head tail hPart ih => exact List.Subset.trans ih (List.subset_append_left ..)
  | tail head hPart ih => exact List.Subset.trans ih (List.subset_append_right ..)

theorem IsPart.hasLongNumber {e whole : Expr F} (hPart : e.IsPart whole)
    (hLong : e.HasLongNumber) : whole.HasLongNumber := by
  obtain ⟨n, hMem, hLength⟩ := hLong
  exact ⟨n, hPart.leaves_subset hMem, hLength⟩

/-- Without host values, a number that is too long is all that can keep an expression from being
printed. -/
theorem print_datum (e : Datum) :
    (e.HasLongNumber ∧ e.print = .error .longNumber) ∨
      (¬ e.HasLongNumber ∧ ∃ s, e.print = .ok s) := by
  have hFault := e.fault?_print
  cases hPrint : e.print with
  | ok s =>
      rw [hPrint] at hFault
      have hLeaves := List.findSome?_eq_none_iff.1 hFault.symm
      refine .inr ⟨?_, s, rfl⟩
      rintro ⟨n, hMem, hLong⟩
      have hLeaf := hLeaves (.int n) hMem
      rw [fault?_atomText_int, if_neg (Nat.not_le_of_lt hLong)] at hLeaf
      cases hLeaf
  | error err =>
      rw [hPrint] at hFault
      obtain ⟨leaf, hMem, hLeaf⟩ := List.exists_of_findSome?_eq_some hFault.symm
      cases leaf with
      | int n =>
          rw [fault?_atomText_int, Option.ite_none_left_eq_some] at hLeaf
          obtain ⟨hLong, hErr⟩ := hLeaf
          cases hErr
          exact .inl ⟨⟨n, hMem, Nat.lt_of_not_le hLong⟩, rfl⟩
      | host value => cases value
      | _ => cases hLeaf

end Expr

/-- Whether a type mismatch can be told depends on the conditional alone, which the value of the
condition is a part of. -/
theorem EvalError.message_typeMismatch {form value : Datum} (hPart : value.IsPart form) :
    (form.HasLongNumber ∧ (typeMismatch form value).message = .error .longNumber) ∨
      (¬ form.HasLongNumber ∧ ∃ message, (typeMismatch form value).message = .ok message) := by
  rw [message]
  rcases form.print_datum with ⟨hLong, hPrint⟩ | ⟨hShort, formText, hPrint⟩
  · rw [hPrint]
    exact .inl ⟨hLong, rfl⟩
  · rcases value.print_datum with ⟨hLong, -⟩ | ⟨-, valueText, hValue⟩
    · exact absurd (hPart.hasLongNumber hLong) hShort
    · rw [hPrint, hValue]
      exact .inr ⟨hShort, _, rfl⟩

/-- Every expression, with numbers of any length, has a value or fails with an error of the language,
whatever the budget. The error has a text, unless it is a mismatch of a conditional that holds a
number too long to be written: then there is the failure to write this number in its place. -/
theorem evaluateWithin_builtin_failure (budget : Nat) (e : Datum) (env : Environment Empty) :
    (∃ value, evaluateWithin .builtin budget e env = ⟨[], .ok (value, env)⟩) ∨
      ∃ err, evaluateWithin .builtin budget e env = ⟨[], .error err⟩ ∧ err.isOfBuiltin = true ∧
        (((∀ form value, err = .typeMismatch form value → ¬ form.HasLongNumber) ∧
            ∃ message, err.message = .ok message) ∨
          ∃ path form value, MismatchAt .builtin env e path form value ∧
            err = .typeMismatch form value ∧ form.HasLongNumber ∧
            err.message = .error .longNumber) := by
  have hSelects := selectsPart_evaluateWithin budget e env
  generalize hEval : evaluateWithin .builtin budget e env = outcome at hSelects
  cases hSelects with
  | @value v hPart => exact .inl ⟨v, rfl⟩
  | tooDeep => exact .inr ⟨_, rfl, rfl, .inl ⟨nofun, _, rfl⟩⟩
  | @notExpression value hPart => cases value
  | @mismatch form value hForm hValue =>
      obtain ⟨path, hAt⟩ := exists_mismatchAt_of_eq_error Registry.isBasic_builtin hEval
      refine .inr ⟨_, rfl, rfl, ?_⟩
      rcases EvalError.message_typeMismatch hAt.2.isPart_value with
        ⟨hLong, hMessage⟩ | ⟨hShort, hMessage⟩
      · exact .inr ⟨path, form, value, hAt, rfl, hLong, hMessage⟩
      · refine .inl ⟨?_, hMessage⟩
        intro form' value' hErr
        cases hErr
        exact hShort

/-- The condition is the least number that is too long to be written. It is no boolean, but there is
no text to say so. -/
theorem not_exists_message_of_long_condition :
    let condition : Datum := .int (10 ^ Numeral.maxDigits)
    let form : Datum := .conditional condition (.int 1) (.int 2)
    ∃ err, (∀ budget, 2 ≤ budget →
        evaluateWithin .builtin budget form .empty = ⟨[], .error err⟩) ∧
      err.message = .error .longNumber ∧ ¬ ∃ message, err.message = .ok message := by
  intro condition form
  have hLong : form.HasLongNumber :=
    ⟨10 ^ Numeral.maxDigits, .tail _ (.head _), Numeral.length_digits_pow Numeral.maxDigits⟩
  have hPart : condition.IsPart form := Expr.isPart_condition ..
  have hEval : ∀ budget, 2 ≤ budget → evaluateWithin .builtin budget form .empty =
      ⟨[], .error (.typeMismatch form condition)⟩ := by
    intro budget hEnough
    obtain ⟨spare, rfl⟩ := Nat.exists_eq_add_of_le' hEnough
    rfl
  rcases EvalError.message_typeMismatch hPart with ⟨-, hMessage⟩ | ⟨hShort, -⟩
  · refine ⟨_, hEval, hMessage, ?_⟩
    rintro ⟨message, hText⟩
    rw [hMessage] at hText
    cases hText
  · exact absurd hLong hShort

end Lisp
