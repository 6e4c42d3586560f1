import Lisp.Proofs.Session.Eval
import Lisp.Server.Request

/-! Answers to requests. Every line has an answer, and a session with the form of the language
alone is the same after each of them. -/

namespace Lisp.Server

/-- Every response says whether all went well. -/
theorem Response.exists_ok (response : Response) :
    ∃ ok, response.value.member? "ok".toList = some (.bool ok) := by
  cases response with
  | result text => exact ⟨true, rfl⟩
  | error message => exact ⟨false, rfl⟩

/-- Values that are all printed answer a request, each on a line of its own. -/
theorem Request.answer_eval_of_none {s : Session Empty} {source : Text} {texts : List Text}
    (hFailure : (s.eval source).failure = none)
    (hTexts : (s.eval source).answer.mapM Expr.print = .ok texts) :
    (eval source).answer s = .ok (.result (['\n'].intercalate texts), (s.eval source).session) := by
  simp only [answer, hFailure, hTexts]
  rfl

/-- A failure answers a request with its message. -/
theorem Request.answer_eval_of_some {s : Session Empty} {source message : Text}
    {failure : SourceError Empty} (hFailure : (s.eval source).failure = some failure)
    (hMessage : failure.message = .ok message) :
    (eval source).answer s = .ok (.error message, (s.eval source).session) := by
  simp only [answer, hFailure, hMessage]
  rfl

/-- The source text that a line asks to evaluate. -/
def Line.code? (line : Line) : Option Text :=
  match line.value with
  | .error _ => none
  | .ok v =>
    match Request.ofValue v with
    | .ok (.eval source) => some source
    | _ => none

/-- A line that asks to evaluate a text is answered as that request is. -/
theorem handle_of_code? {s s' : Session Empty} {line : Line} {source : Text} {response : Response}
    (hCode : line.code? = some source)
    (hAnswer : (Request.eval source).answer s = .ok (response, s')) :
    handle s line = .ok ⟨response, s', false⟩ := by
  unfold Line.code? at hCode
  split at hCode
  · cases hCode
  · rename_i v hValue
    split at hCode
    · rename_i hRequest
      cases hCode
      simp only [handle, hValue, hRequest, hAnswer]
      rfl
    · cases hCode

theorem Request.exists_answer_fresh (budget : Nat) (request : Request) :
    ∃ response, request.answer (.fresh budget) = .ok (response, .fresh budget) := by
  cases request with
  | reset => exact ⟨_, rfl⟩
  | eval source =>
      obtain ⟨_, rfl, hSession, ⟨lines, hLines⟩, hMessage⟩ :=
        Session.exists_texts_of_eval_fresh (F := Empty) budget source
      cases hFailure : ((Session.fresh budget).eval source).failure with
      | none =>
          obtain ⟨texts, hTexts⟩ := Session.Run.exists_answer_texts hLines
          have hAnswer := answer_eval_of_none hFailure hTexts
          rw [hSession] at hAnswer
          exact ⟨_, hAnswer⟩
      | some failure =>
          obtain ⟨-, message, hText⟩ := hMessage failure hFailure
          have hAnswer := answer_eval_of_some hFailure hText
          rw [hSession] at hAnswer
          exact ⟨_, hAnswer⟩

/-- A fresh session answers every line and is as fresh after it. -/
theorem exists_handle_fresh (budget : Nat) (line : Line) :
    ∃ handled, handle (.fresh budget) line = .ok handled ∧ handled.session = .fresh budget := by
  unfold handle
  split
  · exact ⟨_, rfl, rfl⟩
  · split
    · exact ⟨_, rfl, rfl⟩
    · rename_i request hRequest
      obtain ⟨response, hAnswer⟩ := request.exists_answer_fresh budget
      rw [hAnswer]
      exact ⟨_, rfl, rfl⟩

/-- What comes of lines in order, each handled in the session that the one before it leaves. -/
def handleAll (s : Session Empty) : List Line → Except (PrintError Empty) (List Handled)
  | [] => .ok []
  | line :: rest => do
    let handled ← handle s line
    return handled :: (← handleAll handled.session rest)

/-- A fresh session handles every line of many as if it were the only one. -/
theorem exists_handleAll_fresh (budget : Nat) (lines : List Line) :
    ∃ answers, handleAll (.fresh budget) lines = .ok answers ∧
      List.Forall₂ (fun line handled =>
        handle (.fresh budget) line = .ok handled ∧ handled.session = .fresh budget)
        lines answers := by
  induction lines with
  | nil => exact ⟨[], rfl, .nil⟩
  | cons line lines ih =>
      obtain ⟨handled, hHandle, hSession⟩ := exists_handle_fresh budget line
      obtain ⟨answers, hRest, hEach⟩ := ih
      refine ⟨handled :: answers, ?_, .cons ⟨hHandle, hSession⟩ hEach⟩
      rw [handleAll, hHandle]
      simp only [bind, Except.bind, hSession, hRest]
      rfl

end Lisp.Server
