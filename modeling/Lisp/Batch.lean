import Lisp.Session

/-! Evaluating a whole source text at once. -/

namespace Lisp.Batch

/-- What evaluating a whole source text shows: a line for each value, and the complaint
that it ends with. -/
structure Report where
  lines : List Text
  complaint : Option Text
  deriving DecidableEq, Repr

/-- What there is to show for a run. The values before a failure are shown. -/
def report (run : Session.Run Empty) : Except (PrintError Empty) Report := do
  let lines ← run.values.mapM Expr.print
  match run.failure with
  | none => return ⟨lines, none⟩
  | some failure => return ⟨lines, some ("error: ".toList ++ (← failure.message))⟩

/-- Evaluate a source text in a fresh session. -/
def run (budget : Nat) (source : Text) : Except (PrintError Empty) Report :=
  report ((Session.fresh budget).eval source)

end Lisp.Batch
