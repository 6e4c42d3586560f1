import Lisp.Proofs.Server.Framing

/-! A session with the form of the language has no history. No request, whatever comes of it,
changes what is said to a later one, and nothing is ever bound. -/

namespace Lisp.Server

/-- Each of any number of lines is handled as a fresh session would handle it alone, and leaves
nothing bound. So the responses on a connection are those that each request would have on a
connection of its own. -/
theorem handleAll_fresh (budget : Nat) :
    (∀ lines : List Line, ∃ answers, handleAll (.fresh budget) lines = .ok answers ∧
      List.Forall₂ (fun line handled =>
        handle (.fresh budget) line = .ok handled ∧ handled.session.env = .empty) lines answers) ∧
    ∀ chunks : List Bytes, ∃ responses,
      (Connection.opened budget).receiveAll chunks = .ok responses ∧
      List.Forall₂ (fun line response => ∃ handled,
        handle (.fresh budget) (.bytes line) = .ok handled ∧ handled.response = response)
        (Connection.requestLines chunks.flatten) responses := by
  refine ⟨fun lines => ?_, fun chunks => ?_⟩
  · obtain ⟨answers, hAnswers, hEach⟩ := exists_handleAll_fresh budget lines
    refine ⟨answers, hAnswers, hEach.imp fun line handled hLine => ⟨hLine.1, ?_⟩⟩
    rw [hLine.2]
    rfl
  · rw [Connection.receiveAll_opened_eq_respondAll]
    exact Connection.exists_respondAll_fresh budget _

end Lisp.Server
