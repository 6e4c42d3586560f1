import Lisp.Proofs.Reader.LineBreak
import Lisp.Proofs.Reader.Readable
import Lisp.Repl

/-! What the loop does about one input, with one rule for each way out of it, and runs that do not
end it, one input after the other. -/

namespace Lisp.Repl

/-- The text that is pending after another line, before it is read. -/
def State.joined (state : State) (line : Text) : Text :=
  if state.pending.isEmpty then line else state.pending ++ '\n' :: line

/-- A reaction of the loop to an input. Only a line that is read without a fault can be a command
to quit, so the two rules for faults need not exclude one. -/
inductive Reacts (state : State) : Input → Reaction → Prop where
  | ends :
      Reacts state .endOfInput
        ⟨if state.pending.trim.isEmpty then [] else [complain "unexpected end of input".toList],
          state.session, none⟩
  | drops : Reacts state .interrupt ⟨[.blank], state.session, some ⟨[], state.session⟩⟩
  | quits {line : Text} (hPending : state.pending = []) (hQuit : line.trim ∈ quitCommands) :
      Reacts state (.line line) ⟨[], state.session, none⟩
  | evaluates {line : Text} {es : List Datum} {events : List Event} {session : Session Empty}
      (hStays : state.pending = [] → line.trim ∉ quitCommands)
      (hRead : readAll (state.joined line) = (es, none))
      (hEval : evaluateAll state.session es = .ok (events, session)) :
      Reacts state (.line line) ⟨events, session, some ⟨[], session⟩⟩
  | collects {line : Text} {es : List Datum} {err : ReadError}
      (hRead : readAll (state.joined line) = (es, some err)) (hMore : err.isIncomplete = true) :
      Reacts state (.line line) ⟨[], state.session, some ⟨state.joined line, state.session⟩⟩
  | refuses {line : Text} {es : List Datum} {err : ReadError}
      (hRead : readAll (state.joined line) = (es, some err)) (hHard : err.isIncomplete = false) :
      Reacts state (.line line)
        ⟨[complain err.message], state.session, some ⟨[], state.session⟩⟩

/-- A command to quit is read as a symbol, whatever white space stands around it. -/
theorem readAll_of_trim_mem_quitCommands {line : Text} (hQuit : line.trim ∈ quitCommands) :
    readAll line = ([(.symbol line.trim : Datum)], none) := by
  have hNames : ∀ name ∈ quitCommands, isReadableName name = true := by decide +kernel
  exact readAll_of_isReadableName_trim (hNames _ hQuit)

theorem stays_of_readAll {state : State} {line : Text} {es : List Datum} {err : ReadError}
    (hRead : readAll (state.joined line) = (es, some err)) :
    state.pending = [] → line.trim ∉ quitCommands := by
  intro hPending hQuit
  rw [State.joined, hPending, List.isEmpty_nil, if_pos rfl,
    readAll_of_trim_mem_quitCommands hQuit] at hRead
  cases hRead

theorem react_line_of_stays {state : State} {line : Text}
    (hStays : state.pending = [] → line.trim ∉ quitCommands) :
    react state (.line line) =
      match readAll (state.joined line) with
      | (es, none) => do
        let (events, session) ← evaluateAll state.session es
        return ⟨events, session, some ⟨[], session⟩⟩
      | (_, some err) =>
        if err.isIncomplete then
          .ok ⟨[], state.session, some ⟨state.joined line, state.session⟩⟩
        else .ok ⟨[complain err.message], state.session, some ⟨[], state.session⟩⟩ := by
  rw [react, if_neg fun hCommand => hStays (List.isEmpty_iff.1 hCommand.1) hCommand.2]
  rfl

theorem reacts_of_react_line {state : State} {line : Text} {reaction : Reaction}
    (hStays : state.pending = [] → line.trim ∉ quitCommands)
    (hReact : react state (.line line) = .ok reaction) : Reacts state (.line line) reaction := by
  rw [react_line_of_stays hStays] at hReact
  rcases hRead : readAll (F := Empty) (state.joined line) with ⟨es, _ | err⟩
  · rw [hRead] at hReact
    cases hEval : evaluateAll state.session es with
    | error err => simp [hEval, bind, Except.bind] at hReact
    | ok shown =>
        simp only [hEval, bind, Except.bind, pure, Except.pure] at hReact
        cases hReact
        exact .evaluates hStays hRead hEval
  · rw [hRead] at hReact
    cases hMore : err.isIncomplete with
    | true =>
        simp only [hMore, if_true] at hReact
        cases hReact
        exact .collects hRead hMore
    | false =>
        simp only [hMore] at hReact
        cases hReact
        exact .refuses hRead hMore

theorem reacts_of_react {state : State} {input : Input} {reaction : Reaction}
    (hReact : react state input = .ok reaction) : Reacts state input reaction := by
  cases input with
  | endOfInput =>
      cases hReact
      exact .ends
  | interrupt =>
      cases hReact
      exact .drops
  | line line =>
      by_cases hQuit : state.pending = [] ∧ line.trim ∈ quitCommands
      · rw [react, if_pos ⟨List.isEmpty_iff.2 hQuit.1, hQuit.2⟩] at hReact
        cases hReact
        exact .quits hQuit.1 hQuit.2
      · exact reacts_of_react_line (not_and.1 hQuit) hReact

theorem Reacts.react_eq {state : State} {input : Input} {reaction : Reaction}
    (hReacts : Reacts state input reaction) : react state input = .ok reaction := by
  cases hReacts with
  | ends => rfl
  | drops => rfl
  | quits hPending hQuit => rw [react, if_pos ⟨List.isEmpty_iff.2 hPending, hQuit⟩]
  | evaluates hStays hRead hEval =>
      rw [react_line_of_stays hStays, hRead]
      simp only [hEval]
      rfl
  | collects hRead hMore =>
      rw [react_line_of_stays (stays_of_readAll hRead), hRead]
      simp only [hMore, if_true]
  | refuses hRead hHard =>
      rw [react_line_of_stays (stays_of_readAll hRead), hRead]
      simp only [hHard, Bool.false_eq_true, if_false]

/-- The rules say what the loop does. -/
theorem react_eq_ok_iff {state : State} {input : Input} {reaction : Reaction} :
    react state input = .ok reaction ↔ Reacts state input reaction :=
  ⟨reacts_of_react, Reacts.react_eq⟩

/-- The loop reads these inputs and goes on. The events are what it shows meanwhile. -/
inductive Reads (settings : Settings) : State → List Input → List Event → State → Prop where
  | nil (state : State) : Reads settings state [] [] state
  | cons {state next last : State} {input : Input} {inputs : List Input} {shown events : List Event}
      {session : Session Empty} (hReact : react state input = .ok ⟨shown, session, some next⟩)
      (hLater : Reads settings next inputs events last) :
      Reads settings state (input :: inputs) (.prompt (state.prompt settings) :: (shown ++ events))
        last

/-- What the loop shows in answer to input, which leaves out the prompts. -/
def answers (events : List Event) : List Event :=
  events.filter fun event =>
    match event with
    | .prompt _ => false
    | _ => true

@[simp] theorem answers_prompt (text : Text) (events : List Event) :
    answers (.prompt text :: events) = answers events := rfl

@[simp] theorem answers_append (events later : List Event) :
    answers (events ++ later) = answers events ++ answers later := by
  simp [answers]

variable {settings : Settings} {state : State} {line : Text}

/-- Text that is not complete stays pending before the next line. -/
theorem State.joined_of_readAll {pending : Text} {es : List Datum} {err : ReadError}
    (hRead : readAll pending = (es, some err)) (session : Session Empty) (line : Text) :
    State.joined ⟨pending, session⟩ line = pending ++ '\n' :: line := by
  cases pending with
  | nil =>
      rw [readAll_nil] at hRead
      cases hRead
  | cons c rest => rfl

/-- The same transcript after these events. -/
def Transcript.after (events : List Event) (rest : Transcript) : Transcript :=
  { rest with events := events ++ rest.events }

/-- A run goes on from where the inputs before it lead. -/
theorem Reads.run_append {last : State} {inputs : List Input} {events : List Event}
    (hReads : Reads settings state inputs events last) (later : List Input) :
    run settings state (inputs ++ later) = (run settings last later).map (.after events) := by
  induction hReads with
  | nil state =>
      rw [List.nil_append]
      cases run settings state later <;> rfl
  | cons hReact hLater ih =>
      rw [List.cons_append, run, hReact]
      simp only [bind, Except.bind, ih]
      cases run settings _ later with
      | error err => rfl
      | ok rest => simp [Except.map, pure, Except.pure, Transcript.after]

theorem Reads.single {input : Input} {shown : List Event} {session : Session Empty} {next : State}
    (hReacts : Reacts state input ⟨shown, session, some next⟩) :
    Reads settings state [input] (.prompt (state.prompt settings) :: shown) next := by
  have hReads : Reads settings state _ _ _ := .cons (react_eq_ok_iff.2 hReacts) (.nil next)
  rwa [List.append_nil] at hReads

theorem Reads.append {middle last : State} {inputs later : List Input} {events more : List Event}
    (hReads : Reads settings state inputs events middle)
    (hLater : Reads settings middle later more last) :
    Reads settings state (inputs ++ later) (events ++ more) last := by
  induction hReads with
  | nil state => exact hLater
  | cons hReact hRest ih =>
      rw [List.cons_append, List.cons_append, List.append_assoc]
      exact .cons hReact (ih hLater)

/-- The end of input ends the loop without a complaint where nothing is pending. -/
theorem run_nil_of_pending_eq_nil (hPending : state.pending = []) :
    run settings state [] = .ok ⟨[.prompt settings.prompt], state.session, []⟩ := by
  obtain ⟨pending, session⟩ := state
  cases hPending
  rfl

end Lisp.Repl
