import Lisp.Batch
import Lisp.Proofs.Reader.LineBreak
import Lisp.Proofs.Session.Run

/-! What there is to show for a run of a fresh session. Expressions that the reader can make
always have a report, and reports of consecutive runs make up the report of the whole. -/

namespace Lisp

/-- An action on all members of a list succeeds exactly if it does on each of them. -/
theorem mapM_eq_ok_iff_forall₂ {ε α β : Type} {f : α → Except ε β} {as : List α} {bs : List β} :
    as.mapM f = .ok bs ↔ List.Forall₂ (fun a b => f a = .ok b) as bs := by
  induction as generalizing bs with
  | nil => simp [pure, Except.pure, eq_comm]
  | cons a as ih =>
      rw [List.mapM_cons, List.forall₂_cons_left_iff]
      cases hHead : f a with
      | error err => simp [bind, Except.bind]
      | ok b =>
          cases hTail : as.mapM f with
          | error err => simp [bind, Except.bind, ← ih, hTail]
          | ok bs' => simp [bind, Except.bind, pure, Except.pure, ← ih, hTail, eq_comm]

theorem exists_forall₂ {α β : Type} {R : α → β → Prop} {as : List α}
    (hEach : ∀ a ∈ as, ∃ b, R a b) : ∃ bs, List.Forall₂ R as bs := by
  induction as with
  | nil => exact ⟨[], .nil⟩
  | cons a as ih =>
      rw [List.forall_mem_cons] at hEach
      obtain ⟨⟨b, hHead⟩, hTail⟩ := hEach
      obtain ⟨bs, hRest⟩ := ih hTail
      exact ⟨b :: bs, .cons hHead hRest⟩

/-- There are texts for expressions that the reader can make, and the expressions are read back
from these texts on lines of their own. -/
theorem exists_mapM_print_of_isReadable {F : Type} {values : List (Expr F)}
    (hReadable : ∀ v ∈ values, v.isReadable = true) :
    ∃ lines, values.mapM Expr.print = .ok lines ∧
      readAll (['\n'].intercalate lines) = (values, none) := by
  obtain ⟨lines, hLines⟩ :=
    exists_forall₂ fun v hMem => exists_print_of_isReadable (hReadable v hMem)
  have hRead := hLines.imp fun v line hLine => hLine.2
  exact ⟨lines, mapM_eq_ok_iff_forall₂.2 (hLines.imp fun v line hLine => hLine.1),
    readAll_intercalate_newline hRead.flip⟩

namespace Batch

/-- Two reports one after the other. Nothing is reported after a complaint. -/
def Report.append (r later : Report) : Report :=
  match r.complaint with
  | none => ⟨r.lines ++ later.lines, later.complaint⟩
  | some _ => r

theorem report_eq_ok_iff {run : Session.Run Empty} {r : Report} :
    report run = .ok r ↔ run.values.mapM Expr.print = .ok r.lines ∧
      (run.failure = none ∧ r.complaint = none ∨
        ∃ failure message, run.failure = some failure ∧ failure.message = .ok message ∧
          r.complaint = some ("error: ".toList ++ message)) := by
  obtain ⟨recorded, values, failure, session⟩ := run
  obtain ⟨lines, complaint⟩ := r
  rw [report]
  cases values.mapM Expr.print with
  | error err => simp [bind, Except.bind]
  | ok texts =>
      cases failure with
      | none => simp [bind, Except.bind, pure, Except.pure, eq_comm]
      | some failure =>
          cases hMessage : failure.message <;>
            simp [bind, Except.bind, pure, Except.pure, hMessage, eq_comm]

/-- A report ends with a complaint exactly if the run fails. -/
theorem complaint_eq_none_iff {run : Session.Run Empty} {r : Report}
    (hReport : report run = .ok r) : r.complaint = none ↔ run.failure = none := by
  obtain ⟨-, ⟨hNone, hComplaint⟩ | ⟨failure, message, hSome, -, hComplaint⟩⟩ :=
    report_eq_ok_iff.1 hReport
  · simp [hNone, hComplaint]
  · simp [hSome, hComplaint]

/-- There is a report on a run if there are texts for its values and for its failure. -/
theorem exists_report_of_texts {run : Session.Run Empty} {lines : List Text}
    (hLines : run.values.mapM Expr.print = .ok lines)
    (hMessage : ∀ failure, run.failure = some failure → ∃ message, failure.message = .ok message) :
    ∃ r, report run = .ok r := by
  cases hFailure : run.failure with
  | none => exact ⟨⟨lines, none⟩, report_eq_ok_iff.2 ⟨hLines, .inl ⟨hFailure, rfl⟩⟩⟩
  | some failure =>
      obtain ⟨message, hText⟩ := hMessage failure hFailure
      exact ⟨⟨lines, _⟩,
        report_eq_ok_iff.2 ⟨hLines, .inr ⟨failure, message, hFailure, hText, rfl⟩⟩⟩

variable {budget : Nat}

theorem run_of_readAll {source : Text} {es : List Datum} (hRead : readAll source = (es, none)) :
    run budget source = report ((Session.fresh budget).run es) := by
  rw [run, Session.eval_of_readAll hRead, Session.Run.withFault_none]

/-- There is a report on expressions that the reader can make, and nothing is bound after
them. -/
theorem exists_report {es : List Datum} (hReadable : ∀ e ∈ es, e.isReadable = true) :
    ((Session.fresh budget).run es).session = .fresh budget ∧
      ∃ r, report ((Session.fresh budget).run es) = .ok r := by
  obtain ⟨values, failure, hRun, hValues, hMessage⟩ :=
    Session.exists_run_builtin .empty budget hReadable
  have hFresh : (Session.fresh budget).run es =
      ⟨[], values, failure.map .eval, .fresh budget⟩ := hRun
  rw [hFresh]
  obtain ⟨lines, hLines, -⟩ := exists_mapM_print_of_isReadable hValues
  refine ⟨rfl, exists_report_of_texts hLines ?_⟩
  intro err hErr
  obtain ⟨failure, hFailure, rfl⟩ := Option.map_eq_some_iff.1 hErr
  exact (hMessage failure hFailure).2

theorem report_append {es fs : List Datum} {r later : Report}
    (hFirst : report ((Session.fresh budget).run es) = .ok r)
    (hSession : ((Session.fresh budget).run es).session = .fresh budget)
    (hLater : report ((Session.fresh budget).run fs) = .ok later) :
    report ((Session.fresh budget).run (es ++ fs)) = .ok (r.append later) := by
  obtain ⟨hLines, ⟨hNone, hComplaint⟩ | ⟨failure, message, hFailure, hText, hComplaint⟩⟩ :=
    report_eq_ok_iff.1 hFirst
  · obtain ⟨hMore, hRest⟩ := report_eq_ok_iff.1 hLater
    rw [Session.run_append, Session.Run.andThen_of_none hNone, hSession, report_eq_ok_iff,
      Report.append, hComplaint]
    refine ⟨?_, hRest⟩
    rw [Session.Run.values_after, List.mapM_append, hLines, hMore]
    rfl
  · rw [Session.run_append, Session.Run.andThen_of_some hFailure, hFirst, Report.append, hComplaint]

end Batch

end Lisp
