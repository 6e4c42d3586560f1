import Lisp.Proofs.Reader.LineBreak
import Lisp.Proofs.Session.Run

/-! Evaluating a text in pieces. Where a piece ends at a line break and is read without a fault,
it makes no difference whether the next one is evaluated with it or after it. This holds of every
registry, since a session only hands on what an expression leaves. -/

namespace Lisp

/-- The same failure, where the text stands `count` characters further on. What goes wrong in an
evaluation names no place. -/
def SourceError.shift {F : Type} (count : Nat) : SourceError F → SourceError F
  | read err => read (err.shift count)
  | eval err => eval err

namespace Session

variable {F : Type}

/-- The same run of a text that stands `count` characters further on. -/
def Run.shift (count : Nat) (run : Run F) : Run F :=
  { run with failure := run.failure.map (SourceError.shift count) }

/-- The session evaluates all of these expressions in order, each in the environment that the one
before it leaves. What comes of it are the tags recorded, the values, and the session at the
end. -/
inductive Evaluates :
    Session F → (es recorded values : List (Expr F)) → Session F → Prop where
  | nil (s : Session F) : Evaluates s [] [] [] s
  | cons {s last : Session F} {env : Environment F} {e value : Expr F}
      {es tags recorded values : List (Expr F)}
      (hEval : s.evaluate e = ⟨tags, .ok (value, env)⟩)
      (hRest : Evaluates { s with env := env } es recorded values last) :
      Evaluates s (e :: es) (tags ++ recorded) (value :: values) last

/-- How evaluation ends in a session, with these expressions still to come and then this fault of
the text: there is nothing more, or the fault is reported, or the next expression fails after it
has recorded these tags. -/
inductive Ends (left : Session F) : (rest : List (Expr F)) → (fault : Option ReadError) →
    (tags : List (Expr F)) → Option (SourceError F) → Prop where
  | finished : Ends left [] none [] none
  | fault (err : ReadError) : Ends left [] (some err) [] (some (.read err))
  | failure {e : Expr F} {tags : List (Expr F)} {err : EvalError F}
      (hEval : left.evaluate e = ⟨tags, .error err⟩) (more : List (Expr F))
      (fault : Option ReadError) : Ends left (e :: more) fault tags (some (.eval err))

/-- Expressions are evaluated up to the first one that fails, and the session that is left is the
one in which it fails. -/
theorem exists_evaluates_of_run (s : Session F) (es : List (Expr F)) (fault : Option ReadError) :
    ∃ done rest recorded tags, es = done ++ rest ∧
      s.Evaluates done recorded (s.run es).values (s.run es).session ∧
      (s.run es).session.Ends rest fault tags ((s.run es).withFault fault).failure ∧
      (s.run es).recorded = recorded ++ tags := by
  induction es generalizing s with
  | nil =>
      refine ⟨[], [], [], [], rfl, .nil s, ?_, rfl⟩
      cases fault with
      | none => exact .finished
      | some err => exact .fault err
  | cons e es ih =>
      rcases hEval : s.evaluate e with ⟨tags, err | ⟨value, env⟩⟩
      · rw [run_cons_of_error hEval]
        exact ⟨[], e :: es, [], tags, rfl, .nil s, .failure hEval es fault, rfl⟩
      · rw [run_cons_of_ok hEval]
        obtain ⟨done, rest, recorded, tags', rfl, hDone, hEnds, hRecorded⟩ :=
          ih { s with env := env }
        refine ⟨e :: done, rest, tags ++ recorded, tags', rfl, .cons hEval hDone, hEnds, ?_⟩
        rw [List.append_assoc, ← hRecorded]
        rfl

theorem Run.shift_withFault (count : Nat) (run : Run F) (fault : Option ReadError) :
    (run.withFault fault).shift count =
      (run.shift count).withFault (fault.map (ReadError.shift count)) := by
  rw [shift, withFault, Option.map_or, Option.map_map]
  rw [withFault, shift, Option.map_map]
  rfl

/-- A run of expressions alone names no place. -/
theorem shift_run (count : Nat) (s : Session F) (es : List (Expr F)) :
    (s.run es).shift count = s.run es := by
  obtain ⟨done, rest, recorded, tags, -, -, hEnds, -⟩ := exists_evaluates_of_run s es none
  rw [Run.withFault_none] at hEnds
  generalize hRun : s.run es = run at hEnds
  obtain ⟨recorded, values, failure, left⟩ := run
  cases hEnds with
  | finished => rfl
  | failure hEval more => rfl

/-- A text that is read without a fault can be evaluated before the text after it, or with it. -/
theorem eval_append_newline (session : Session F) {s : Text}
    (hRead : (readAll (F := F) s).2 = none) (t : Text) :
    session.eval (s ++ '\n' :: t) =
      (session.eval s).andThen fun left => (left.eval t).shift (s.length + 1) := by
  have hFirst : readAll s = ((readAll (F := F) s).1, none) := Prod.ext rfl hRead
  rcases hSecond : readAll (F := F) t with ⟨fs, fault⟩
  rw [eval_of_readAll (readAll_append_newline_of_none hFirst hSecond), eval_of_readAll hFirst,
    Run.withFault_none, run_append]
  cases hFailure : (session.run (readAll s).1).failure with
  | some failure =>
      rw [Run.andThen_of_some hFailure, Run.andThen_of_some hFailure,
        Run.withFault_of_some hFailure]
  | none =>
      rw [Run.andThen_of_none hFailure, Run.andThen_of_none hFailure, Run.withFault_after,
        eval_of_readAll hSecond, Run.shift_withFault, shift_run]

/-- It makes no difference whether a text is evaluated at once or in two pieces, of which the first
is read without a fault and the second is evaluated if nothing failed before it. Whatever the
text, the session that it leaves is the one that its last success left: the next expression fails
there, or there is none and the text has a fault. -/
theorem eval_in_pieces (session : Session F) :
    (∀ s t : Text, (readAll (F := F) s).2 = none →
      session.eval (s ++ '\n' :: t) =
        (session.eval s).andThen fun left => (left.eval t).shift (s.length + 1)) ∧
    ∀ source : Text, ∃ done rest recorded tags, (readAll source).1 = done ++ rest ∧
      session.Evaluates done recorded (session.eval source).values
        (session.eval source).session ∧
      (session.eval source).session.Ends rest (readAll (F := F) source).2 tags
        (session.eval source).failure ∧
      (session.eval source).recorded = recorded ++ tags := by
  refine ⟨fun s t hRead => session.eval_append_newline hRead t, fun source => ?_⟩
  rcases hRead : readAll (F := F) source with ⟨es, fault⟩
  rw [eval_of_readAll hRead]
  exact session.exists_evaluates_of_run es fault

theorem eval_in_pieces_fault_after_binding :
    let session : Session Empty :=
      ⟨.empty, Registry.builtin.extend
        [("bind!".toList, .binding), ("touch!".toList, .recording)], 3⟩
    let s : Text := "(bind! a (if #t 1 2)) ; c".toList
    let t : Text := "(touch! b) (bind! d 3) )".toList
    let run := session.eval (s ++ '\n' :: t)
    (readAll (F := Empty) s).2 = none ∧
      run = (session.eval s).andThen (fun left => (left.eval t).shift (s.length + 1)) ∧
      run.recorded = [.symbol ['b']] ∧ run.values = [.int 1, .symbol ['b'], .int 3] ∧
      run.failure = some (.read (.unexpectedCloser .round 49)) ∧
      run.session.env.names = [['a'], ['d']] := by
  intro session s t run
  have hRead : (readAll (F := Empty) s).2 = none := by decide +kernel
  have hWhole : readAll (s ++ '\n' :: t) =
      (([.ofList [.symbol "bind!".toList, .symbol ['a'],
          .ofList [.symbol ['i', 'f'], .bool true, .int 1, .int 2]],
        .ofList [.symbol "touch!".toList, .symbol ['b']],
        .ofList [.symbol "bind!".toList, .symbol ['d'], .int 3]] : List Datum),
        some (.unexpectedCloser .round 49)) := by decide +kernel
  refine ⟨hRead, (eval_in_pieces session).1 s t hRead, ?_⟩
  have hRun : run = _ := eval_of_readAll hWhole
  rw [hRun]
  exact ⟨rfl, rfl, rfl, rfl⟩

end Session

end Lisp
