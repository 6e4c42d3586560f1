import Lisp.Proofs.Repl.Batch

/-! Runs of the loop that begin with a fresh session. The loop can react to every input, and the
session is as fresh after it, so a run never breaks off. -/

namespace Lisp.Repl

variable {budget : Nat}

/-- Input that the reader can make is evaluated, and nothing is bound after it. -/
theorem exists_evaluateAll_fresh {es : List Datum} (hReadable : ∀ e ∈ es, e.isReadable = true) :
    ∃ events, evaluateAll (.fresh budget) es = .ok (events, .fresh budget) := by
  obtain ⟨hSession, r, hReport⟩ := Batch.exists_report hReadable
  have hEval := evaluateAll_of_report hReport
  rw [hSession] at hEval
  exact ⟨r.events, hEval⟩

/-- The loop can react to every input, and the session stays fresh. -/
theorem exists_react_fresh (pending : Text) (input : Input) :
    ∃ events next,
      react ⟨pending, .fresh budget⟩ input = .ok ⟨events, .fresh budget, next⟩ ∧
      ∀ state ∈ next, state.session = .fresh budget := by
  simp only [react_eq_ok_iff]
  cases input with
  | endOfInput => exact ⟨_, none, .ends, by simp⟩
  | interrupt => exact ⟨_, some ⟨[], .fresh budget⟩, .drops, by simp⟩
  | line line =>
      by_cases hQuit : pending = [] ∧ line.trim ∈ quitCommands
      · exact ⟨[], none, .quits hQuit.1 hQuit.2, by simp⟩
      · rw [not_and] at hQuit
        rcases hRead : readAll (F := Empty) (State.joined ⟨pending, .fresh budget⟩ line) with
          ⟨es, _ | err⟩
        · obtain ⟨events, hEval⟩ := exists_evaluateAll_fresh (isReadable_of_mem_readAll hRead)
          exact ⟨events, some ⟨[], .fresh budget⟩, .evaluates hQuit hRead hEval, by simp⟩
        · cases hIncomplete : err.isIncomplete with
          | true => exact ⟨[], some ⟨_, .fresh budget⟩, .collects hRead hIncomplete, by simp⟩
          | false => exact ⟨_, some ⟨[], .fresh budget⟩, .refuses hRead hIncomplete, by simp⟩

/-- A run ends whatever the input, and the session is as fresh at its end. -/
theorem exists_run_fresh (budget : Nat) (settings : Settings) (pending : Text)
    (inputs : List Input) :
    ∃ events unread, run settings ⟨pending, .fresh budget⟩ inputs =
      .ok ⟨events, .fresh budget, unread⟩ := by
  induction inputs generalizing pending with
  | nil =>
      obtain ⟨events, next, hReact, -⟩ := exists_react_fresh pending .endOfInput
      rw [run, hReact]
      exact ⟨_, _, rfl⟩
  | cons input inputs ih =>
      obtain ⟨events, next, hReact, hNext⟩ := exists_react_fresh pending input
      rw [run, hReact]
      cases next with
      | none => exact ⟨_, inputs, rfl⟩
      | some state =>
          obtain ⟨joined, session⟩ := state
          obtain rfl : session = .fresh budget := hNext _ rfl
          obtain ⟨later, unread, hRun⟩ := ih joined
          simp only [bind, Except.bind, hRun]
          exact ⟨_, unread, rfl⟩

end Lisp.Repl
