import Lisp.Editor.Analysis
import Lisp.Proofs.Reader.Form
import Lisp.Proofs.Server.Request
import Lisp.Proofs.Text.Position

/-! The analysis of a document, form by form. As the form of the language binds nothing, what is
said about a form does not depend on the forms before it. Main statement: the first problem of a
document is the failure of its evaluation, and the results before it are the values. -/

namespace Lisp.Editor

/-- The analysis of these forms, and of the fault after them, says this. -/
inductive Analyzes (budget : Nat) (source : Text) :
    List (Nat × Datum) → Option ReadError → Analysis → Prop where
  | done : Analyzes budget source [] none ⟨[], []⟩
  | fault {err : ReadError} {offset : Nat} (hPosition : err.position = some offset) :
      Analyzes budget source [] (some err) ⟨[⟨source.positionAt offset, err.message, .error⟩], []⟩
  | result {offset : Nat} {e v : Datum} {text : Text} {forms : List (Nat × Datum)}
      {fault : Option ReadError} {a : Analysis}
      (hEval : evaluateWithin .builtin budget e .empty = ⟨[], .ok (v, .empty)⟩)
      (hText : v.print = .ok text)
      (more : Analyzes budget source forms fault a) :
      Analyzes budget source ((offset, e) :: forms) fault
        (a.addResult ⟨source.positionAt offset, text⟩)
  | problem {offset : Nat} {e : Datum} {failure : EvalError Empty} {message : Text}
      {forms : List (Nat × Datum)} {fault : Option ReadError} {a : Analysis}
      (hEval : evaluateWithin .builtin budget e .empty = ⟨[], .error failure⟩)
      (hMessage : failure.message = .ok message) (more : Analyzes budget source forms fault a) :
      Analyzes budget source ((offset, e) :: forms) fault
        (a.addProblem ⟨source.positionAt offset, message, severityOf failure⟩)

namespace Analysis

variable {source : Text} {stream later : TokenStream}

theorem ofStream_nil (session : Session Empty) :
    ofStream source session ⟨[], none⟩ = .ok ⟨[], []⟩ := by
  rw [ofStream]
  rfl

theorem ofStream_of_error {err : ReadError} (session : Session Empty)
    (hNext : (TokenStream.next (F := Empty) stream).1 = .error err) :
    ofStream source session stream = .ok (ofReadError source err) := by
  obtain ⟨tokens, unclosedComment⟩ := stream
  rw [ofStream]
  cases tokens with
  | nil =>
      cases unclosedComment with
      | none => cases hNext
      | some start =>
          cases hNext
          rfl
  | cons t rest =>
      simp only [TokenStream.peek]
      split <;> simp_all

section

variable (session : Session Empty) {t : Token} {tokens : List Token}
  {unclosedComment : Option Nat} {e : Datum} {recorded : List Datum} {a : Analysis}

theorem ofStream_cons
    (hNext : TokenStream.next ⟨t :: tokens, unclosedComment⟩ = (.ok (some e), later)) :
    ofStream source session ⟨t :: tokens, unclosedComment⟩ =
      match (session.evaluate e).result with
      | .error err => do
        let message ← err.message
        return (← ofStream source session later).addProblem
          ⟨source.positionAt t.offset, message, severityOf err⟩
      | .ok (value, env) => do
        let text ← value.print
        return (← ofStream source { session with env := env } later).addResult
          ⟨source.positionAt t.offset, text⟩ := by
  rw [ofStream]
  simp only [TokenStream.peek]
  split
  · simp_all
  · simp_all
  · rename_i e' rest hNext'
    rw [hNext] at hNext'
    cases hNext'
    rfl

theorem ofStream_of_value {v : Datum} {env : Environment Empty} {text : Text}
    (hNext : TokenStream.next ⟨t :: tokens, unclosedComment⟩ = (.ok (some e), later))
    (hEval : session.evaluate e = ⟨recorded, .ok (v, env)⟩)
    (hText : v.print = .ok text)
    (hLater : ofStream source { session with env := env } later = .ok a) :
    ofStream source session ⟨t :: tokens, unclosedComment⟩ =
      .ok (a.addResult ⟨source.positionAt t.offset, text⟩) := by
  rw [ofStream_cons session hNext, hEval]
  simp only [hText, hLater]
  rfl

theorem ofStream_of_failure {failure : EvalError Empty} {message : Text}
    (hNext : TokenStream.next ⟨t :: tokens, unclosedComment⟩ = (.ok (some e), later))
    (hEval : session.evaluate e = ⟨recorded, .error failure⟩)
    (hMessage : failure.message = .ok message) (hLater : ofStream source session later = .ok a) :
    ofStream source session ⟨t :: tokens, unclosedComment⟩ =
      .ok (a.addProblem ⟨source.positionAt t.offset, message, severityOf failure⟩) := by
  rw [ofStream_cons session hNext, hEval]
  simp only [hMessage, hLater]
  rfl

end

/-- The analysis, and what is said about a fault at this place. -/
def withFault (a : Analysis) (place : Position) (fault : Option ReadError) : Analysis :=
  { a with problems := a.problems ++ (fault.map fun err => ⟨place, err.message, .error⟩).toList }

end Analysis

namespace Analyzes

variable {budget : Nat} {source : Text} {forms : List (Nat × Datum)} {fault : Option ReadError}
  {a : Analysis}

/-- The stream that has these forms and this fault is analyzed so. -/
theorem ofStream_eq (hAnalyzes : Analyzes budget source forms fault a)
    {unclosedComment : Option Nat} {tokens : List Token}
    (hForms : TokenStream.ReadsForms unclosedComment tokens forms fault) :
    Analysis.ofStream source (.fresh budget) ⟨tokens, unclosedComment⟩ = .ok a := by
  induction hForms generalizing a with
  | last hLast =>
      cases hAnalyzes with
      | done =>
          obtain ⟨rfl, rfl⟩ := TokenStream.eq_nil_of_nextWithin .nil hLast
          exact Analysis.ofStream_nil (.fresh budget)
      | fault hPosition =>
          rw [Analysis.ofStream_of_error (.fresh budget) hLast, Analysis.ofReadError, hPosition]
          rfl
  | @form t used rest e forms fault hDerives hRest ih =>
      have hNext := (TokenStream.next_eq_ok_some_iff unclosedComment (t :: used) rest e).2 hDerives
      cases hAnalyzes with
      | result hEval hText more =>
          exact Analysis.ofStream_of_value (.fresh budget) hNext hEval hText (ih more)
      | problem hEval hMessage more =>
          exact Analysis.ofStream_of_failure (.fresh budget) hNext hEval hMessage (ih more)

/-- A document with these forms and this fault is analyzed so. -/
theorem analyze_eq (hAnalyzes : Analyzes budget source forms fault a)
    (hForms : HasForms source forms fault) : analyze budget source = .ok a :=
  hAnalyzes.ofStream_eq hForms

/-- There is an analysis of forms that the reader can make. -/
theorem exists_of_isReadable (budget : Nat) (source : Text)
    (hReadable : ∀ form ∈ forms, form.2.isReadable = true) :
    ∃ a, Analyzes budget source forms none a := by
  induction forms with
  | nil => exact ⟨_, .done⟩
  | cons form forms ih =>
      rw [List.forall_mem_cons] at hReadable
      obtain ⟨hHead, hTail⟩ := hReadable
      obtain ⟨a, hAnalyzes⟩ := ih hTail
      obtain ⟨v, hEval, hValue⟩ | ⟨failure, message, hEval, -, hMessage⟩ :=
        evaluateWithin_builtin_cases budget .empty hHead
      · obtain ⟨text, hText, -⟩ := exists_print_of_isReadable hValue
        exact ⟨_, .result hEval hText hAnalyzes⟩
      · exact ⟨_, .problem hEval hMessage hAnalyzes⟩

/-- What is said about a fault comes after what is said about forms. -/
theorem withFault (hAnalyzes : Analyzes budget source forms none a) {offset : Nat}
    (hPosition : ∀ err ∈ fault, ReadError.position err = some offset) :
    Analyzes budget source forms fault (a.withFault (source.positionAt offset) fault) := by
  induction forms generalizing a with
  | nil =>
      cases hAnalyzes
      cases fault with
      | none => exact .done
      | some err => exact .fault (hPosition err rfl)
  | cons form forms ih =>
      cases hAnalyzes with
      | result hEval hText more => exact .result hEval hText (ih more)
      | problem hEval hMessage more => exact .problem hEval hMessage (ih more)

end Analyzes

/-- A document has forms, and there is an analysis of them. What is said about the fault is still
to be added. -/
theorem exists_analyzes_of_readAll (budget : Nat) {source : Text} {es : List Datum}
    {fault : Option ReadError} (hRead : readAll source = (es, fault)) :
    ∃ forms a, HasForms source forms fault ∧ forms.map Prod.snd = es ∧
      Analyzes budget source forms none a := by
  obtain ⟨forms, hForms, rfl⟩ := exists_hasForms_of_readAll hRead
  obtain ⟨a, hAnalyzes⟩ := Analyzes.exists_of_isReadable budget source fun form hMem =>
    isReadable_of_mem_readAll hRead form.2 (List.mem_map_of_mem hMem)
  exact ⟨forms, a, hForms, rfl, hAnalyzes⟩

namespace Analysis

/-- The places of all that an analysis says. -/
def places (a : Analysis) : List Position :=
  a.problems.map Problem.position ++ a.results.map FormResult.position

theorem mem_places_addResult {a : Analysis} {r : FormResult} {place : Position} :
    place ∈ (a.addResult r).places ↔ place = r.position ∨ place ∈ a.places := by
  simp only [places, addResult, List.map_cons, List.mem_append, List.mem_cons]
  exact or_left_comm

theorem mem_places_addProblem {a : Analysis} {p : Problem} {place : Position} :
    place ∈ (a.addProblem p).places ↔ place = p.position ∨ place ∈ a.places := by
  simp only [places, addProblem, List.map_cons, List.mem_append, List.mem_cons, or_assoc]

end Analysis

namespace Analyzes

variable {budget : Nat} {source : Text} {forms : List (Nat × Datum)} {fault : Option ReadError}
  {a : Analysis}

/-- What an analysis says is said of the places of forms and of the fault. -/
theorem exists_offset_of_mem_places (hAnalyzes : Analyzes budget source forms fault a) :
    ∀ place ∈ a.places, ∃ offset ∈ forms.map Prod.fst ++ (fault.bind ReadError.position).toList,
      place = source.positionAt offset := by
  induction hAnalyzes with
  | done => simp [Analysis.places]
  | @fault err offset hPosition => simp [Analysis.places, hPosition]
  | @result offset e v text forms fault a hEval hText more ih =>
      intro place hMem
      rcases Analysis.mem_places_addResult.1 hMem with rfl | hLater
      · exact ⟨offset, by simp, rfl⟩
      · obtain ⟨later, hOffset, hPlace⟩ := ih place hLater
        exact ⟨later, List.mem_cons_of_mem _ hOffset, hPlace⟩
  | @problem offset e failure message forms fault a hEval hMessage more ih =>
      intro place hMem
      rcases Analysis.mem_places_addProblem.1 hMem with rfl | hLater
      · exact ⟨offset, by simp, rfl⟩
      · obtain ⟨later, hOffset, hPlace⟩ := ih place hLater
        exact ⟨later, List.mem_cons_of_mem _ hOffset, hPlace⟩

/-- What is said after a form is said of later places. -/
theorem lt_of_mem_places (hAnalyzes : Analyzes budget source forms fault a) {offset : Nat}
    (hOrder : (offset :: (forms.map Prod.fst ++ (fault.bind ReadError.position).toList)).Pairwise
      (· < ·)) : ∀ place ∈ a.places, source.positionAt offset < place := by
  intro place hMem
  obtain ⟨later, hOffset, rfl⟩ := hAnalyzes.exists_offset_of_mem_places place hMem
  exact source.positionAt_lt_positionAt (List.rel_of_pairwise_cons hOrder hOffset)

end Analyzes

/-- The analysis says of the run what it is: that all forms have values with these texts, or that
it ends with the first problem, after values with the texts of the results before it. -/
inductive Agrees (a : Analysis) (run : Session.Run Empty) : Prop where
  | clean (hProblems : a.problems = []) (hFailure : run.failure = none)
      (hValues : run.values.mapM Expr.print = .ok (a.results.map FormResult.text))
  | failed {p : Problem} {others : List Problem} (before after : List FormResult)
      {failure : SourceError Empty} (hProblems : a.problems = p :: others)
      (hResults : a.results = before ++ after) (hFailure : run.failure = some failure)
      (hMessage : failure.message = .ok p.message)
      (hValues : run.values.mapM Expr.print = .ok (before.map FormResult.text))
      (hBefore : ∀ r ∈ before, r.position < p.position)
      (hAfter : ∀ r ∈ after, p.position < r.position)

/-- An analysis agrees with the run of its forms. -/
theorem Analyzes.agrees {budget : Nat} {source : Text} {forms : List (Nat × Datum)}
    {fault : Option ReadError} {a : Analysis} (hAnalyzes : Analyzes budget source forms fault a)
    (hOrder : (forms.map Prod.fst ++ (fault.bind ReadError.position).toList).Pairwise (· < ·)) :
    Agrees a (((Session.fresh budget).run (forms.map Prod.snd)).withFault fault) := by
  induction hAnalyzes with
  | done => exact .clean rfl rfl rfl
  | @fault err offset hPosition =>
      exact .failed [] [] rfl rfl rfl rfl rfl (by simp) (by simp)
  | @problem offset e failure message forms fault a hEval hMessage more ih =>
      -- The run ends here, and all results that are known come from later forms.
      rw [List.map_cons, Session.run_cons_of_error (s := .fresh budget) hEval]
      refine .failed [] _ rfl rfl rfl hMessage rfl (by simp) fun r hMem => ?_
      exact more.lt_of_mem_places hOrder r.position
        (List.mem_append_right _ (List.mem_map_of_mem hMem))
  | @result offset e v text forms fault a hEval hText more ih =>
      rw [List.map_cons, Session.run_cons_of_ok (s := .fresh budget) hEval,
        Session.Run.withFault_after]
      have hLater := more.lt_of_mem_places hOrder
      have hTexts : ∀ {values : List Datum} {lines : List Text},
          values.mapM Expr.print = .ok lines →
            (v :: values).mapM Expr.print = .ok (text :: lines) := by
        intro values lines hValues
        exact mapM_eq_ok_iff_forall₂.2 (.cons hText (mapM_eq_ok_iff_forall₂.1 hValues))
      cases ih hOrder.of_cons with
      | clean hProblems hFailure hValues => exact .clean hProblems hFailure (hTexts hValues)
      | @failed p others before after failure hProblems hResults hFailure hMessage hValues hBefore
          hAfter =>
          have hFirst : source.positionAt offset < p.position := by
            refine more.lt_of_mem_places hOrder p.position (List.mem_append_left _ ?_)
            simp [hProblems]
          exact .failed (⟨source.positionAt offset, text⟩ :: before) after hProblems
            (congrArg _ hResults) hFailure hMessage (hTexts hValues)
            (List.forall_mem_cons.2 ⟨hFirst, hBefore⟩) hAfter

/-- Every document has an analysis, and it agrees with the evaluation of its text. -/
theorem exists_agrees (budget : Nat) (source : Text) :
    ∃ a, analyze budget source = .ok a ∧ Agrees a ((Session.fresh budget).eval source) := by
  rcases hRead : readAll (F := Empty) source with ⟨es, fault⟩
  obtain ⟨forms, a, hForms, rfl, hAnalyzes⟩ := exists_analyzes_of_readAll budget hRead
  obtain ⟨offset, hPosition⟩ := TokenStream.exists_position_of_readAll hRead
  have hWhole := hAnalyzes.withFault hPosition
  rw [Session.eval_of_readAll hRead]
  exact ⟨_, hWhole.analyze_eq hForms, hWhole.agrees hForms.increasing⟩

namespace Agrees

variable {a : Analysis} {run : Session.Run Empty}

theorem of_problems_eq_nil (hAgrees : Agrees a run) (hClean : a.problems = []) :
    run.failure = none ∧ run.values.mapM Expr.print = .ok (a.results.map FormResult.text) := by
  cases hAgrees with
  | clean hProblems hFailure hValues => exact ⟨hFailure, hValues⟩
  | failed before after hProblems => simp [hClean] at hProblems

theorem of_problems_eq_cons (hAgrees : Agrees a run) {p : Problem} {others : List Problem}
    (hFirst : a.problems = p :: others) :
    (∃ failure, run.failure = some failure ∧ failure.message = .ok p.message) ∧
      run.values.mapM Expr.print =
        .ok ((a.results.filter (·.position < p.position)).map FormResult.text) := by
  cases hAgrees with
  | clean hProblems hFailure hValues => simp [hFirst] at hProblems
  | @failed p' others' before after failure hProblems hResults hFailure hMessage hValues hBefore
      hAfter =>
      rw [hFirst] at hProblems
      obtain ⟨rfl, rfl⟩ := List.cons.inj hProblems
      refine ⟨⟨failure, hFailure, hMessage⟩, ?_⟩
      have hFilter : a.results.filter (·.position < p.position) = before := by
        rw [hResults, List.filter_append, List.filter_eq_self.2 (by simpa using hBefore),
          List.filter_eq_nil_iff.2 (by simpa using fun r hMem => (hAfter r hMem).le),
          List.append_nil]
      rw [hFilter]
      exact hValues

end Agrees

/-- A request to evaluate a document has a result exactly if the document has no problem, and
else it has the first problem as its error. -/
theorem exists_response_of_agrees {budget : Nat} {source : Text} {a : Analysis}
    (hAgrees : Agrees a ((Session.fresh budget).eval source)) {line : Server.Line}
    (hCode : line.code? = some source) :
    ∃ response session, Server.handle (.fresh budget) line = .ok ⟨response, session, false⟩ ∧
      ((∃ text, response = .result text) ↔ a.problems = []) ∧
        ∀ p ∈ a.problems.head?, response = .error p.message := by
  cases hProblems : a.problems with
  | nil =>
      obtain ⟨hFailure, hValues⟩ := hAgrees.of_problems_eq_nil hProblems
      obtain ⟨texts, hTexts⟩ := Session.Run.exists_answer_texts hValues
      have hAnswer := Server.Request.answer_eval_of_none hFailure hTexts
      exact ⟨_, _, Server.handle_of_code? hCode hAnswer, by simp, by simp⟩
  | cons p others =>
      obtain ⟨⟨failure, hFailure, hMessage⟩, -⟩ := hAgrees.of_problems_eq_cons hProblems
      have hAnswer := Server.Request.answer_eval_of_some hFailure hMessage
      exact ⟨_, _, Server.handle_of_code? hCode hAnswer, by simp, by simp⟩

/-- What an editor says of a document is what evaluating the document shows. Without a problem,
evaluation does not fail and the results are the printed values. Otherwise it fails with the first
problem, and the results before that problem are the values up to the failure. A session that is
asked to evaluate the document answers the same. -/
theorem analyze_agrees_with_evaluation (budget : Nat) (source : Text) :
    ∃ (a : Analysis) (run : Session.Run Empty), analyze budget source = .ok a ∧
      (Session.fresh budget).eval source = run ∧
      (a.problems = [] → run.failure = none ∧
        run.values.mapM Expr.print = .ok (a.results.map FormResult.text)) ∧
      (∀ p others, a.problems = p :: others →
        (∃ failure : SourceError Empty, run.failure = some failure ∧
          failure.message = .ok p.message) ∧
        run.values.mapM Expr.print =
          .ok ((a.results.filter (·.position < p.position)).map FormResult.text)) ∧
      ∀ line : Server.Line, line.code? = some source →
        ∃ response session, Server.handle (.fresh budget) line = .ok ⟨response, session, false⟩ ∧
          ((∃ text, response = .result text) ↔ a.problems = []) ∧
            ∀ p ∈ a.problems.head?, response = .error p.message := by
  obtain ⟨a, hAnalyze, hAgrees⟩ := exists_agrees budget source
  exact ⟨a, _, hAnalyze, rfl, hAgrees.of_problems_eq_nil,
    fun p others => hAgrees.of_problems_eq_cons,
    fun line hCode => exists_response_of_agrees hAgrees hCode⟩

theorem analyze_agrees_with_evaluation_two_problems :
    let source : Text := "1 (if 2 3 4) 5 )".toList
    let line : Server.Line :=
      .text "\x7b\"cmd\": \"eval\", \"code\": \"1 (if 2 3 4) 5 )\"\x7d".toList
    let mismatch : Text :=
      "type mismatch: condition of (if 2 3 4) evaluated to 2, expected #t or #f".toList
    let closer : Problem := ⟨⟨0, 15⟩, "Unexpected ')' (at offset 15)".toList, .error⟩
    let a : Analysis :=
      ⟨[⟨⟨0, 2⟩, mismatch, .error⟩, closer], [⟨⟨0, 0⟩, ['1']⟩, ⟨⟨0, 13⟩, ['5']⟩]⟩
    line.code? = some source ∧ analyze 2 source = .ok a ∧
      ∃ (run : Session.Run Empty) (failure : SourceError Empty) (session : Session Empty),
        (Session.fresh 2).eval source = run ∧ run.failure = some failure ∧
          failure.message = .ok mismatch ∧ run.values.mapM Expr.print = .ok [['1']] ∧
            Server.handle (.fresh 2) line = .ok ⟨.error mismatch, session, false⟩ := by
  intro source line mismatch closer a
  have hCode : line.code? = some source := by decide +kernel
  have hAnalysis : analyze 2 source = .ok a := by decide +kernel
  obtain ⟨a', run, hAnalyze, hRun, -, hFailed, hAnswers⟩ := analyze_agrees_with_evaluation 2 source
  obtain rfl : a = a' := Except.ok.inj (hAnalysis.symm.trans hAnalyze)
  obtain ⟨⟨failure, hFailure, hMessage⟩, hValues⟩ := hFailed _ _ rfl
  obtain ⟨response, session, hHandle, -, hError⟩ := hAnswers line hCode
  obtain rfl := hError _ rfl
  exact ⟨hCode, hAnalysis, run, failure, session, hRun, hFailure, hMessage, hValues, hHandle⟩

end Lisp.Editor
