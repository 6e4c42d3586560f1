import Lisp.Proofs.CommandLine.Program
import Lisp.Proofs.Editor.Analysis

/-! What can come of source text. It may be no text of the language, and its evaluation may fail,
but only in the ways that the language has, so that no program of this library breaks off on it. -/

namespace Lisp

/-- Every source text is evaluated to values that are printed, or up to a failure of the language
that has a message. So every text can be analysed, its evaluation ends the program with a
status, a loop at a prompt gets to the end of its input, and a session answers every line. -/
theorem only_failures_of_language (budget : Nat) :
    (∀ (F : Type) [HostValue F] (source : Text),
      ∃ run : Session.Run F, (Session.fresh budget).eval source = run ∧
        (∃ lines, run.values.mapM Expr.print = .ok lines) ∧
        (∃ texts, run.answer.mapM Expr.print = .ok texts) ∧
        ∀ err, run.failure = some err →
          err.isOfLanguage = true ∧ ∃ message, err.message = .ok message) ∧
    (∀ source, ∃ a, Editor.analyze budget source = .ok a) ∧
    (∀ settings file stdin source, ∃ output,
      (CommandLine.Command.eval source).perform budget settings file stdin = .ok output ∧
        output.exit =
          if ((Session.fresh budget).eval source : Session.Run Empty).failure = none then 0
          else 1) ∧
    (∀ settings inputs, ∃ transcript,
      Repl.run settings ⟨[], .fresh budget⟩ inputs = .ok transcript) ∧
    ∀ line, ∃ handled ok, Server.handle (.fresh budget) line = .ok handled ∧
      handled.response.value.member? "ok".toList = some (.bool ok) := by
  refine ⟨?eval, ?analyze, CommandLine.Command.exists_perform_eval budget, ?loop, ?server⟩
  case eval =>
    intro F _ source
    obtain ⟨run, hEval, -, ⟨lines, hLines⟩, hFailure⟩ :=
      Session.exists_texts_of_eval_fresh (F := F) budget source
    have hAnswer := Session.Run.exists_answer_texts hLines
    exact ⟨run, hEval, ⟨lines, hLines⟩, hAnswer, hFailure⟩
  case analyze =>
    intro source
    obtain ⟨a, hAnalyze, -⟩ := Editor.exists_agrees budget source
    exact ⟨a, hAnalyze⟩
  case loop =>
    intro settings inputs
    obtain ⟨events, unread, hRun⟩ := Repl.exists_run_fresh budget settings [] inputs
    exact ⟨_, hRun⟩
  case server =>
    intro line
    obtain ⟨handled, hHandle, -⟩ := Server.exists_handle_fresh budget line
    obtain ⟨ok, hOk⟩ := handled.response.exists_ok
    exact ⟨handled, ok, hHandle, hOk⟩

end Lisp
