import Lisp.Proofs.Eval.Part
import Lisp.Session
import Mathlib.Data.List.Forall2

/-! Evaluating expressions in order. What comes after a failure is not evaluated, and what comes
after a success is evaluated in the session that is left. A session with the form of the
language alone is never changed. -/

namespace Lisp.Session

variable {F : Type}

namespace Run

/-- The same run after these tags and values. -/
def after (recorded values : List (Expr F)) (later : Run F) : Run F :=
  { later with recorded := recorded ++ later.recorded, values := values ++ later.values }

@[simp] theorem values_after (recorded values : List (Expr F)) (later : Run F) :
    (later.after recorded values).values = values ++ later.values := rfl

theorem after_after (recorded recorded' values values' : List (Expr F)) (later : Run F) :
    (later.after recorded' values').after recorded values =
      later.after (recorded ++ recorded') (values ++ values') := by
  simp [after]

/-- What comes of a run and then, if nothing failed, of another one in the session that is left. -/
def andThen (first : Run F) (next : Session F → Run F) : Run F :=
  match first.failure with
  | some _ => first
  | none => (next first.session).after first.recorded first.values

variable {first : Run F}

theorem andThen_of_some {failure : SourceError F} (hFailure : first.failure = some failure)
    (next : Session F → Run F) : first.andThen next = first := by
  rw [andThen, hFailure]

theorem andThen_of_none (hFailure : first.failure = none) (next : Session F → Run F) :
    first.andThen next = (next first.session).after first.recorded first.values := by
  rw [andThen, hFailure]

theorem after_andThen (recorded values : List (Expr F)) (first : Run F)
    (next : Session F → Run F) :
    (first.after recorded values).andThen next =
      (first.andThen next).after recorded values := by
  cases hFailure : first.failure with
  | some failure =>
      have hAfter : (first.after recorded values).failure = some failure := hFailure
      rw [andThen_of_some hFailure, andThen_of_some hAfter]
  | none =>
      have hAfter : (first.after recorded values).failure = none := hFailure
      rw [andThen_of_none hFailure, andThen_of_none hAfter, after_after]
      rfl

theorem withFault_none (run : Run F) : run.withFault none = run := by
  rw [withFault, Option.map_none, Option.or_none]

theorem withFault_of_some {run : Run F} {failure : SourceError F}
    (hFailure : run.failure = some failure) (fault : Option ReadError) :
    run.withFault fault = run := by
  rw [withFault, hFailure, Option.some_or, ← hFailure]

theorem withFault_after (recorded values : List (Expr F)) (run : Run F)
    (fault : Option ReadError) :
    (run.after recorded values).withFault fault = (run.withFault fault).after recorded values :=
  rfl

end Run

theorem run_cons_of_error {s : Session F} {e : Expr F} {recorded : List (Expr F)}
    {err : EvalError F} (hEval : s.evaluate e = ⟨recorded, .error err⟩)
    (es : List (Expr F)) : s.run (e :: es) = ⟨recorded, [], some (.eval err), s⟩ := by
  rw [run, hEval]

theorem run_cons_of_ok {s : Session F} {e value : Expr F} {recorded : List (Expr F)}
    {env : Environment F} (hEval : s.evaluate e = ⟨recorded, .ok (value, env)⟩)
    (es : List (Expr F)) :
    s.run (e :: es) = (run { s with env := env } es).after recorded [value] := by
  rw [run, hEval]
  rfl

/-- Expressions that come later are run in the session that the earlier ones leave. -/
theorem run_append (s : Session F) (es fs : List (Expr F)) :
    s.run (es ++ fs) = (s.run es).andThen fun left => left.run fs := by
  induction es generalizing s with
  | nil => rfl
  | cons e es ih =>
      rw [List.cons_append]
      rcases hEval : s.evaluate e with ⟨recorded, err | ⟨value, env⟩⟩
      · rw [run_cons_of_error hEval, run_cons_of_error hEval]
        rfl
      · rw [run_cons_of_ok hEval, run_cons_of_ok hEval, ih, Run.after_andThen]

theorem eval_of_readAll {s : Session F} {source : Text} {es : List (Expr F)}
    {fault : Option ReadError} (hRead : readAll source = (es, fault)) :
    s.eval source = (s.run es).withFault fault := by
  rw [eval, hRead]

/-- A run with the form of the language on expressions that the reader can make: nothing is
recorded, the session stays, and there are texts for the values and for the failure. -/
theorem exists_run_builtin [HostValue F] {es : List (Expr F)} (env : Environment F)
    (budget : Nat) (hReadable : ∀ e ∈ es, e.isReadable = true) :
    ∃ values failure, run ⟨env, .builtin, budget⟩ es =
        ⟨[], values, failure.map .eval, ⟨env, .builtin, budget⟩⟩ ∧
      (∀ v ∈ values, v.isReadable = true) ∧
        ∀ err, failure = some err →
          err.isOfBuiltin = true ∧ ∃ message, err.message = .ok message := by
  induction es with
  | nil => exact ⟨[], none, rfl, by simp, by simp⟩
  | cons e es ih =>
      rw [List.forall_mem_cons] at hReadable
      obtain ⟨hHead, hTail⟩ := hReadable
      obtain ⟨v, hEval, hValue⟩ | ⟨err, message, hEval, hKind, hMessage⟩ :=
        evaluateWithin_builtin_cases budget env hHead
      · obtain ⟨values, failure, hRun, hValues, hFailure⟩ := ih hTail
        refine ⟨v :: values, failure, ?_, List.forall_mem_cons.2 ⟨hValue, hValues⟩, hFailure⟩
        rw [run_cons_of_ok (s := ⟨env, .builtin, budget⟩) hEval, hRun]
        rfl
      · refine ⟨[], some err, run_cons_of_error (s := ⟨env, .builtin, budget⟩) hEval es,
          by simp, ?_⟩
        intro failure hFailure
        cases hFailure
        exact ⟨hKind, message, hMessage⟩

/-- A run with the form of the language goes to its end exactly if each expression has a value by
itself. -/
theorem run_builtin_eq_iff_forall₂ {env : Environment F} {budget : Nat}
    {es values : List (Expr F)} :
    run ⟨env, .builtin, budget⟩ es = ⟨[], values, none, ⟨env, .builtin, budget⟩⟩ ↔
      List.Forall₂ (fun e v => evaluateWithin .builtin budget e env = ⟨[], .ok (v, env)⟩)
        es values := by
  induction es generalizing values with
  | nil =>
      rw [List.forall₂_nil_left_iff]
      constructor
      · intro hRun
        cases hRun
        rfl
      · rintro rfl
        rfl
  | cons e es ih =>
      rw [List.forall₂_cons_left_iff]
      constructor
      · intro hRun
        have hSelects := selectsPart_evaluateWithin budget e env
        rcases hEval : evaluateWithin .builtin budget e env with ⟨recorded, err | ⟨v, env'⟩⟩
        · rw [run_cons_of_error (s := ⟨env, .builtin, budget⟩) hEval] at hRun
          cases hRun
        · rw [hEval] at hSelects
          cases hSelects
          rw [run_cons_of_ok (s := ⟨env, .builtin, budget⟩) hEval] at hRun
          generalize hRest : run ⟨env, .builtin, budget⟩ es = rest at hRun
          obtain ⟨tags, others, failure, left⟩ := rest
          cases hRun
          exact ⟨v, others, rfl, ih.1 hRest, rfl⟩
      · rintro ⟨v, others, hEval, hRest, rfl⟩
        rw [run_cons_of_ok (s := ⟨env, .builtin, budget⟩) hEval, ih.2 hRest]
        rfl

end Lisp.Session
