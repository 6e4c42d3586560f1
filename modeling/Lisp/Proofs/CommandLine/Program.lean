import Lisp.CommandLine.Program
import Lisp.Proofs.Repl.Run
import Lisp.Proofs.Session.Eval

/-! What a run of the program writes. Every run has an output, and evaluating source text fails
with the status one if the evaluation does. -/

namespace Lisp

/-- Every source text has a report. -/
theorem Batch.exists_run (budget : Nat) (source : Text) : ∃ r, run budget source = .ok r := by
  obtain ⟨_, rfl, -, ⟨lines, hLines⟩, hMessage⟩ :=
    Session.exists_texts_of_eval_fresh (F := Empty) budget source
  rw [run]
  apply exists_report_of_texts hLines
  intro failure hFailure
  exact (hMessage failure hFailure).2

namespace CommandLine

theorem Output.exit_ofReport (r : Batch.Report) :
    (ofReport r).exit = if r.complaint = none then 0 else 1 := by
  obtain ⟨lines, _ | complaint⟩ := r <;> rfl

/-- Evaluating source text has an output, and its status is that of the evaluation. -/
theorem Command.exists_perform_eval (budget : Nat) (settings : Settings)
    (file : Text → Option Text) (stdin source : Text) :
    ∃ output, (eval source).perform budget settings file stdin = .ok output ∧
      output.exit =
        if ((Session.fresh budget).eval source : Session.Run Empty).failure = none then 0
        else 1 := by
  obtain ⟨r, hRun⟩ := Batch.exists_run budget source
  refine ⟨.ofReport r, ?_, ?_⟩
  · rw [perform, hRun]
    rfl
  · rw [Output.exit_ofReport]
    exact if_congr (Batch.complaint_eq_none_iff hRun) rfl rfl

/-- Every command has an output. -/
theorem Command.exists_perform (budget : Nat) (settings : Settings) (file : Text → Option Text)
    (stdin : Text) (command : Command) :
    ∃ output, command.perform budget settings file stdin = .ok output := by
  cases command with
  | repl prompt =>
      obtain ⟨events, unread, hRun⟩ :=
        Repl.exists_run_fresh budget { settings with prompt := prompt.getD settings.prompt } []
          ((inputLines stdin).map .line)
      rw [perform, hRun]
      exact ⟨_, rfl⟩
  | eval source =>
      obtain ⟨output, hPerform, -⟩ := exists_perform_eval budget settings file stdin source
      exact ⟨output, hPerform⟩
  | run path =>
      rw [perform]
      split
      · exact ⟨_, rfl⟩
      · rename_i source hFile
        obtain ⟨r, hRun⟩ := Batch.exists_run budget (Text.unifyNewlines source)
        rw [hRun]
        exact ⟨_, rfl⟩
  | serve host port => exact ⟨_, rfl⟩
  | lsp => exact ⟨_, rfl⟩

/-- The program has an output whatever it is given. -/
theorem exists_run (budget : Nat) (vars : Variables) (file : Text → Option Text) (stdin : Text)
    (args : List Text) : ∃ output, run budget vars file stdin args = .ok output := by
  unfold run
  split
  · exact ⟨_, rfl⟩
  · exact ⟨_, rfl⟩
  · rename_i settings command hCommand
    exact command.exists_perform budget settings file stdin

end CommandLine

end Lisp
