import Lisp.Proofs.Repl.Reads
import Lisp.Proofs.Session.Report

/-! The loop at a prompt and the evaluation of a whole text at once agree. The loop cuts a text
into groups of lines and reads each group on its own. By induction on the lines, the groups
have together the expressions of the text, and their reports make up the report of the text. -/

namespace Lisp

namespace Batch.Report

/-- The lines and the complaint as the loop at a prompt shows them. -/
def events (r : Report) : List Repl.Event :=
  r.lines.map .value ++ r.complaint.toList.map .complaint

/-- The events show what is reported, up to the complaint if there is one. -/
def ShownBy (r : Report) (events : List Repl.Event) : Prop :=
  ∃ more, events = r.events ++ more ∧ (r.complaint = none → more = [])

theorem ShownBy.append {r later : Report} {events : List Repl.Event}
    (hLater : later.ShownBy events) : (r.append later).ShownBy (r.events ++ events) := by
  obtain ⟨lines, complaint⟩ := r
  cases complaint with
  | none =>
      obtain ⟨more, rfl, hMore⟩ := hLater
      refine ⟨more, ?_, hMore⟩
      simp [Report.append, Report.events]
  | some message =>
      refine ⟨events, rfl, ?_⟩
      intro hNone
      cases hNone

end Batch.Report

namespace Repl

variable {settings : Settings} {budget : Nat}

@[simp] theorem answers_events (r : Batch.Report) : answers r.events = r.events := by
  obtain ⟨lines, complaint⟩ := r
  cases complaint <;> simp [answers, Batch.Report.events]

/-- The loop shows what is reported on a run. -/
theorem evaluateAll_of_report {session : Session Empty} {es : List Datum} {r : Batch.Report}
    (hReport : Batch.report (session.run es) = .ok r) :
    evaluateAll session es = .ok (r.events, (session.run es).session) := by
  obtain ⟨hLines, hFailure⟩ := Batch.report_eq_ok_iff.1 hReport
  have hValues : ((session.run es).values.mapM fun value => return Event.value (← value.print)) =
      .ok (r.lines.map .value) := by
    rw [mapM_eq_ok_iff_forall₂, List.forall₂_map_right_iff]
    apply (mapM_eq_ok_iff_forall₂.1 hLines).imp
    intro value line hPrint
    rw [hPrint]
    rfl
  unfold evaluateAll
  simp only [hValues]
  obtain ⟨hNone, hComplaint⟩ | ⟨failure, message, hSome, hText, hComplaint⟩ := hFailure
  · simp [bind, Except.bind, pure, Except.pure, hNone, hComplaint, Batch.Report.events]
  · simp [bind, Except.bind, pure, Except.pure, hSome, hText, hComplaint, Batch.Report.events,
      complain]

/-- A group of lines that is complete is answered with its report, and nothing is pending or
bound after it. -/
theorem exists_react_line {pending line : Text} {group : List Datum}
    (hQuit : line.trim ∉ quitCommands)
    (hGroup : readAll (State.joined ⟨pending, .fresh budget⟩ line) = (group, none)) :
    ∃ r, Batch.report ((Session.fresh budget).run group) = .ok r ∧
      ((Session.fresh budget).run group).session = .fresh budget ∧
        react ⟨pending, .fresh budget⟩ (.line line) =
          .ok ⟨r.events, .fresh budget, some ⟨[], .fresh budget⟩⟩ := by
  obtain ⟨hSession, r, hReport⟩ := Batch.exists_report (isReadable_of_mem_readAll hGroup)
  have hEval := evaluateAll_of_report hReport
  rw [hSession] at hEval
  exact ⟨r, hReport, hSession, react_eq_ok_iff.2 (.evaluates (fun _ => hQuit) hGroup hEval)⟩

theorem intercalate_cons_append (s line : Text) (lines : List Text) :
    ['\n'].intercalate ((s ++ '\n' :: line) :: lines) =
      s ++ '\n' :: ['\n'].intercalate (line :: lines) := by
  cases lines <;> simp

/-- The loop reads the lines of a text to the end, with what is pending as the start of the
first of them. -/
theorem exists_reads {pending line : Text} {lines : List Text} {es : List Datum}
    (hRead : readAll (['\n'].intercalate
      (State.joined ⟨pending, .fresh budget⟩ line :: lines)) = (es, none))
    (hQuit : ∀ l ∈ line :: lines, l.trim ∉ quitCommands) :
    ∃ r events, Batch.report ((Session.fresh budget).run es) = .ok r ∧
      Reads settings ⟨pending, .fresh budget⟩ ((line :: lines).map .line) events
        ⟨[], .fresh budget⟩ ∧
        r.ShownBy (answers events) := by
  induction lines generalizing pending line es with
  | nil =>
      rw [List.intercalate_singleton] at hRead
      obtain ⟨r, hReport, -, hReact⟩ := exists_react_line (hQuit line (by simp)) hRead
      refine ⟨r, _, hReport, .cons hReact (.nil _), [], ?_, fun _ => rfl⟩
      simp
  | cons next lines ih =>
      rw [List.intercalate_cons_cons, List.append_assoc, List.singleton_append] at hRead
      rw [List.forall_mem_cons] at hQuit
      obtain ⟨hLine, hLines⟩ := hQuit
      rcases hGroup : readAll (F := Empty) (State.joined ⟨pending, .fresh budget⟩ line) with
        ⟨group, _ | err⟩
      · -- The group is complete, and the rest of the text is read as it would be alone.
        obtain ⟨rest, hRest, rfl⟩ := exists_readAll_rest hGroup hRead
        obtain ⟨r, hReport, hSession, hReact⟩ := exists_react_line hLine hGroup
        obtain ⟨later, events, hLater, hReads, hShown⟩ := @ih [] next rest hRest hLines
        refine ⟨r.append later, _, Batch.report_append hReport hSession hLater,
          .cons hReact hReads, ?_⟩
        rw [answers_prompt, answers_append, answers_events]
        exact hShown.append
      · cases hIncomplete : err.isIncomplete with
        | false =>
            -- A fault that more lines cannot mend would be a fault of the text.
            rw [readAll_append_newline_of_error hGroup hIncomplete] at hRead
            cases hRead
        | true =>
            have hReact := react_eq_ok_iff.2 (.collects hGroup hIncomplete)
            rw [← intercalate_cons_append, ← State.joined_of_readAll hGroup] at hRead
            obtain ⟨r, events, hReport, hReads, hShown⟩ := ih hRead hLines
            refine ⟨r, _, hReport, .cons hReact hReads, ?_⟩
            rw [answers_prompt, List.nil_append]
            exact hShown

/-- The loop reads the lines of a text that can be read, and in the end nothing is pending. It
shows what evaluating the whole text shows, and goes on only after a complaint. -/
theorem run_splitOn_shows_report (budget : Nat) (settings : Settings) (source : Text)
    (hRead : (readAll (F := Empty) source).2 = none)
    (hQuit : ∀ line : Text, line ∈ source.splitOn '\n' → line.trim ∉ quitCommands) :
    ∃ r events, Batch.run budget source = .ok r ∧
      Reads settings ⟨[], .fresh budget⟩ ((source.splitOn '\n').map .line) events
        ⟨[], .fresh budget⟩ ∧
      run settings ⟨[], .fresh budget⟩ ((source.splitOn '\n').map .line) =
        .ok ⟨events ++ [.prompt settings.prompt], .fresh budget, []⟩ ∧
      r.ShownBy (answers events) := by
  rcases hEs : readAll (F := Empty) source with ⟨es, err⟩
  rw [hEs] at hRead
  cases hRead
  rcases hLines : source.splitOn '\n' with _ | ⟨line, lines⟩
  · exact absurd hLines (List.splitOn_ne_nil _ _)
  · have hJoin : ['\n'].intercalate (line :: lines) = source := by
      rw [← hLines, List.intercalate_splitOn]
    rw [hLines] at hQuit
    obtain ⟨r, events, hReport, hReads, hShown⟩ :=
      @exists_reads settings budget [] line lines es (by rw [← hEs, ← hJoin]; rfl) hQuit
    refine ⟨r, events, ?_, hReads, ?_, hShown⟩
    · rw [Batch.run_of_readAll hEs, hReport]
    · have hRun := hReads.run_append []
      rw [List.append_nil, run_nil_of_pending_eq_nil rfl] at hRun
      exact hRun

theorem run_splitOn_shows_report_groups :
    let source : Text := "(if #t\n 1 2) #| x\n|# a\n(if 3 4 5) 6\n7".toList
    ∃ r events, Batch.run 2 source = .ok r ∧
      Reads {} ⟨[], .fresh 2⟩ ((source.splitOn '\n').map .line) events ⟨[], .fresh 2⟩ ∧
      run {} ⟨[], .fresh 2⟩ ((source.splitOn '\n').map .line) =
        .ok ⟨events ++ [.prompt ({} : Settings).prompt], .fresh 2, []⟩ ∧
      r.ShownBy (answers events) := by
  intro source
  exact run_splitOn_shows_report 2 {} source (by decide +kernel) (by decide +kernel)

end Repl

end Lisp
