import Lisp.Proofs.Session.Report

/-! Evaluating a whole source text with the form of the language. Whatever the text, it is
evaluated to its end or to a failure of the language, and all that is made of it has a text. -/

namespace Lisp

/-- The failures that source text can have with the form of the language: it cannot be read, a
condition is no boolean, or evaluations are nested too deeply. -/
def SourceError.isOfLanguage {F : Type} : SourceError F → Bool
  | read _ => true
  | eval err => err.isOfBuiltin

namespace Session

variable {F : Type}

/-- The values of an answer are printed if those of the run are. -/
theorem Run.exists_answer_texts {run : Run F} {lines : List Text}
    (hLines : run.values.mapM Expr.print = .ok lines) :
    ∃ texts, run.answer.mapM Expr.print = .ok texts := by
  rw [Run.answer]
  split
  · refine ⟨[['(', ')']], ?_⟩
    rw [mapM_eq_ok_iff_forall₂]
    exact .cons (by rw [Expr.print_eq_written]; rfl) .nil
  · exact ⟨lines, hLines⟩

/-- These are the values of the expressions of a source text, with the form of the language. The
text is read to its end, and each expression has a value by itself. -/
def HasValues (budget : Nat) (env : Environment F) (source : Text) (values : List (Expr F)) :
    Prop :=
  ∃ es, readAll source = (es, none) ∧
    List.Forall₂ (fun e v => evaluateWithin .builtin budget e env = ⟨[], .ok (v, env)⟩) es values

/-- A source text is evaluated without a failure exactly if all of its expressions have values. -/
theorem hasValues_iff {budget : Nat} {env : Environment F} {source : Text}
    {values : List (Expr F)} :
    HasValues budget env source values ↔
      eval ⟨env, .builtin, budget⟩ source = ⟨[], values, none, ⟨env, .builtin, budget⟩⟩ := by
  rcases hRead : readAll (F := F) source with ⟨es, fault⟩
  rw [eval_of_readAll hRead]
  constructor
  · rintro ⟨es', hRead', hValues⟩
    cases hRead.symm.trans hRead'
    rw [run_builtin_eq_iff_forall₂.2 hValues, Run.withFault_none]
  · intro hEval
    have hFailure := congrArg Run.failure hEval
    obtain ⟨-, hFault⟩ := Option.or_eq_none_iff.1 hFailure
    obtain rfl := Option.map_eq_none_iff.1 hFault
    exact ⟨es, hRead, run_builtin_eq_iff_forall₂.1 (by rwa [Run.withFault_none] at hEval)⟩

variable [HostValue F]

/-- Source text is evaluated to values that the reader can make too, and up to a failure of the
language. -/
theorem exists_eval_builtin (env : Environment F) (budget : Nat) (source : Text) :
    ∃ values failure, eval ⟨env, .builtin, budget⟩ source =
        ⟨[], values, failure, ⟨env, .builtin, budget⟩⟩ ∧
      (∀ v ∈ values, v.isReadable = true) ∧
        ∀ err, failure = some err →
          err.isOfLanguage = true ∧ ∃ message, err.message = .ok message := by
  rcases hRead : readAll (F := F) source with ⟨es, fault⟩
  obtain ⟨values, failure, hRun, hValues, hFailure⟩ :=
    exists_run_builtin env budget (isReadable_of_mem_readAll hRead)
  refine ⟨values, (failure.map .eval).or (fault.map .read), ?_, hValues, fun err hErr => ?_⟩
  · rw [eval_of_readAll hRead, hRun, Run.withFault]
  · rcases Option.or_eq_some_iff.1 hErr with hEval | ⟨-, hFault⟩
    · obtain ⟨evalErr, hSome, rfl⟩ := Option.map_eq_some_iff.1 hEval
      exact hFailure evalErr hSome
    · obtain ⟨readErr, -, rfl⟩ := Option.map_eq_some_iff.1 hFault
      exact ⟨rfl, _, rfl⟩

/-- Nothing is bound after a text that is evaluated in a fresh session, and there are texts for
its values and for its failure. -/
theorem exists_texts_of_eval_fresh (budget : Nat) (source : Text) :
    ∃ run : Run F, (fresh budget).eval source = run ∧ run.session = .fresh budget ∧
      (∃ lines, run.values.mapM Expr.print = .ok lines) ∧
        ∀ err, run.failure = some err →
          err.isOfLanguage = true ∧ ∃ message, err.message = .ok message := by
  obtain ⟨values, failure, hEval, hValues, hFailure⟩ :=
    exists_eval_builtin (Environment.empty : Environment F) budget source
  obtain ⟨lines, hLines, -⟩ := exists_mapM_print_of_isReadable hValues
  exact ⟨⟨[], values, failure, .fresh budget⟩, hEval, rfl, ⟨lines, hLines⟩, hFailure⟩

end Session

end Lisp
