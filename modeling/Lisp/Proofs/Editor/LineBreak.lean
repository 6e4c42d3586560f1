import Lisp.Proofs.Editor.Analysis
import Lisp.Proofs.Reader.LineBreak

/-! The analysis of a document that grows at a line break. No form depends on those before it, so
the forms after the line break are analyzed as they would be alone. Only the places change, and
the offsets that the message of a fault names. -/

namespace Lisp.Editor

/-- The same problem so many lines further down. -/
def Problem.down (lines : Nat) (p : Problem) : Problem :=
  { p with position := p.position.down lines }

/-- The same result so many lines further down. -/
def FormResult.down (lines : Nat) (r : FormResult) : FormResult :=
  { r with position := r.position.down lines }

namespace Analysis

/-- What is said about a document, and then what is said about the text after it. -/
def append (a b : Analysis) : Analysis := ⟨a.problems ++ b.problems, a.results ++ b.results⟩

/-- The same analysis so many lines further down. -/
def down (lines : Nat) (a : Analysis) : Analysis :=
  ⟨a.problems.map (.down lines), a.results.map (.down lines)⟩

theorem withFault_some_inj {a b : Analysis} {place place' : Position} {err : ReadError}
    (hSame : a.withFault place (some err) = b.withFault place' (some err)) :
    a = b ∧ place = place' := by
  obtain ⟨problems, results⟩ := a
  obtain ⟨problems', results'⟩ := b
  simp only [withFault, Option.map_some, Option.toList_some, mk.injEq] at hSame
  obtain ⟨hProblems, rfl⟩ := hSame
  obtain ⟨rfl, hLast⟩ := List.append_inj' hProblems rfl
  simp only [List.cons.injEq, Problem.mk.injEq, and_true] at hLast
  exact ⟨rfl, hLast⟩

theorem down_zero (a : Analysis) : a.down 0 = a := by
  have hProblem : Problem.down 0 = id := rfl
  have hResult : FormResult.down 0 = id := rfl
  rw [down, hProblem, hResult, List.map_id, List.map_id]

theorem down_addProblem (lines : Nat) (a : Analysis) (p : Problem) :
    (a.addProblem p).down lines = (a.down lines).addProblem (p.down lines) := rfl

theorem down_addResult (lines : Nat) (a : Analysis) (r : FormResult) :
    (a.addResult r).down lines = (a.down lines).addResult (r.down lines) := rfl

end Analysis

namespace Analyzes

variable {budget : Nat} {source : Text} {forms : List (Nat × Datum)} {a : Analysis}

theorem append {laterForms : List (Nat × Datum)} {fault : Option ReadError} {b : Analysis}
    (hFirst : Analyzes budget source forms none a)
    (hLater : Analyzes budget source laterForms fault b) :
    Analyzes budget source (forms ++ laterForms) fault (a.append b) := by
  induction forms generalizing a with
  | nil =>
      cases hFirst
      exact hLater
  | cons form forms ih =>
      cases hFirst with
      | result hEval hText more => exact .result hEval hText (ih more)
      | problem hEval hMessage more => exact .problem hEval hMessage (ih more)

/-- The same forms in another text are analyzed the same, up to the places where they begin. -/
theorem move {source' : Text} (count lines : Nat) (hAnalyzes : Analyzes budget source forms none a)
    (hPlaces : ∀ form ∈ forms,
      source'.positionAt (form.1 + count) = (source.positionAt form.1).down lines) :
    Analyzes budget source' (forms.map (Prod.map (· + count) id)) none (a.down lines) := by
  induction forms generalizing a with
  | nil =>
      cases hAnalyzes
      exact .done
  | cons form forms ih =>
      obtain ⟨hHead, hTail⟩ := List.forall_mem_cons.1 hPlaces
      cases hAnalyzes with
      | result hEval hText more =>
          rw [Analysis.down_addResult, FormResult.down, ← hHead]
          exact .result hEval hText (ih more hTail)
      | problem hEval hMessage more =>
          rw [Analysis.down_addProblem, Problem.down, ← hHead]
          exact .problem hEval hMessage (ih more hTail)

/-- What follows a text does not change where its forms begin. -/
theorem append_text (hAnalyzes : Analyzes budget source forms none a)
    (hWithin : ∀ form ∈ forms, form.1 < source.length) (later : Text) :
    Analyzes budget (source ++ later) forms none a := by
  have hMoved := hAnalyzes.move 0 0 fun form hMem =>
    source.positionAt_append_of_le (hWithin form hMem).le later
  have hSame : Prod.map (· + 0) id = (id : Nat × Datum → Nat × Datum) := rfl
  rwa [Analysis.down_zero, hSame, List.map_id] at hMoved

end Analyzes

/-- An analysis goes on after a line break. If the text before it is read without a fault, what is
said about the whole is what is said about that text and then, further down by the lines of that
text, what is said about the text after it. The columns and texts stay, and a fault of the
reader comes last and names the offsets in the whole. -/
theorem analyze_append_newline (budget : Nat) {s : Text}
    (hRead : (readAll (F := Empty) s).2 = none) (t : Text) :
    ∃ (a b : Analysis) (place : Position), analyze budget s = .ok a ∧
      analyze budget t = .ok (b.withFault place (readAll (F := Empty) t).2) ∧
      analyze budget (s ++ '\n' :: t) =
        .ok ((a.append (b.down (s.count '\n' + 1))).withFault (place.down (s.count '\n' + 1))
          ((readAll (F := Empty) t).2.map (.shift (s.length + 1)))) := by
  have hFirst : readAll s = ((readAll (F := Empty) s).1, none) := Prod.ext rfl hRead
  rcases hSecond : readAll (F := Empty) t with ⟨fs, fault⟩
  obtain ⟨forms, a, hForms, -, hBefore⟩ := exists_analyzes_of_readAll budget hFirst
  obtain ⟨laterForms, b, hLater, -, hAfter⟩ := exists_analyzes_of_readAll budget hSecond
  obtain ⟨offset, hPosition⟩ := TokenStream.exists_position_of_readAll hSecond
  refine ⟨a, b, t.positionAt offset, hBefore.analyze_eq hForms,
    (hAfter.withFault hPosition).analyze_eq hLater, ?_⟩
  have hFront := hBefore.append_text hForms.lt_length ('\n' :: t)
  have hBehind := hAfter.move (s.length + 1) (s.count '\n' + 1) fun form _ =>
    s.positionAt_append_newline t form.1
  rw [← s.positionAt_append_newline]
  refine ((hFront.append hBehind).withFault fun err hMem => ?_).analyze_eq
    (hForms.append_newline hLater)
  obtain ⟨err, hErr, rfl⟩ := Option.map_eq_some_iff.1 hMem
  rw [ReadError.position_shift, hPosition err hErr, Option.map_some]

theorem analyze_append_newline_mismatched_closer :
    let s : Text := "(if 2 3 4)\n1 ; a".toList
    let t : Text := "b (if #t\n[c 5)".toList
    let mismatch : Text :=
      "type mismatch: condition of (if 2 3 4) evaluated to 2, expected #t or #f".toList
    let alone : Text := "Mismatched ')': list opened with '[' at offset 9 (at offset 13)".toList
    let behind : Text := "Mismatched ')': list opened with '[' at offset 26 (at offset 30)".toList
    (readAll (F := Empty) s).2 = none ∧
      analyze 2 t = .ok ⟨[⟨⟨1, 4⟩, alone, .error⟩], [⟨⟨0, 0⟩, ['b']⟩]⟩ ∧
      analyze 2 (s ++ '\n' :: t) =
        .ok ⟨[⟨⟨0, 0⟩, mismatch, .error⟩, ⟨⟨3, 4⟩, behind, .error⟩],
          [⟨⟨1, 0⟩, ['1']⟩, ⟨⟨2, 0⟩, ['b']⟩]⟩ := by
  intro s t mismatch alone behind
  let err : ReadError := .mismatchedCloser .round .square 9 13
  have hRead : (readAll (F := Empty) s).2 = none := by decide +kernel
  have hFault : (readAll (F := Empty) t).2 = some err := by decide +kernel
  have hFirst : analyze 2 s = .ok ⟨[⟨⟨0, 0⟩, mismatch, .error⟩], [⟨⟨1, 0⟩, ['1']⟩]⟩ := by
    decide +kernel
  have hSecond :
      analyze 2 t = .ok (Analysis.withFault ⟨[], [⟨⟨0, 0⟩, ['b']⟩]⟩ ⟨1, 4⟩ (some err)) := by
    decide +kernel
  obtain ⟨a, b, place, hA, hB, hWhole⟩ := analyze_append_newline 2 hRead t
  obtain rfl := Except.ok.inj (hA.symm.trans hFirst)
  rw [hFault] at hB hWhole
  obtain ⟨rfl, rfl⟩ := Analysis.withFault_some_inj (Except.ok.inj (hB.symm.trans hSecond))
  exact ⟨hRead, hSecond, hWhole.trans (by decide +kernel)⟩

end Lisp.Editor
