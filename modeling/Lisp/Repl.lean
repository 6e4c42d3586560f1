import Lisp.Session
import Lisp.Settings
import Lisp.Text.Blank

/-! The loop at a prompt, as a machine that reacts to one input at a time. Lines are
collected until they can be read as a whole. -/

namespace Lisp.Repl

/-- What the user does at a prompt. -/
inductive Input where
  | line (text : Text)
  | interrupt
  | endOfInput
  deriving DecidableEq, Repr

/-- What the user sees: a prompt, the text of a value, a complaint, or the empty line
after an interrupt. -/
inductive Event where
  | prompt (text : Text)
  | value (text : Text)
  | complaint (text : Text)
  | blank
  deriving DecidableEq, Repr

/-- The text that is not complete yet, and the session. -/
structure State where
  pending : Text
  session : Session Empty

/-- What an input leads to. The loop ends unless there is a state to go on with. -/
structure Reaction where
  events : List Event
  session : Session Empty
  next : Option State

/-- The lines that end the loop where nothing is pending. -/
def quitCommands : List Text := [",quit", ",q", ",exit"].map String.toList

/-- A complaint about a fault. -/
def complain (message : Text) : Event := .complaint ("error: ".toList ++ message)

/-- The prompt for the next line. -/
def State.prompt (state : State) (settings : Settings) : Text :=
  if state.pending.isEmpty then settings.prompt else settings.continuationPrompt

/-- Evaluate complete input: the values up to the first failure, and the failure. The
loop stops for good if one of these has no text. -/
def evaluateAll (session : Session Empty) (es : List Datum) :
    Except (PrintError Empty) (List Event × Session Empty) := do
  let run := session.run es
  let values ← run.values.mapM fun value => return .value (← value.print)
  match run.failure with
  | none => return (values, run.session)
  | some failure => return (values ++ [complain (← failure.message)], run.session)

/-- React to one input. A line joins what is pending. Input that is not complete stays
pending, and input that cannot be read is dropped as a whole. -/
def react (state : State) : Input → Except (PrintError Empty) Reaction
  | .endOfInput =>
    let events :=
      if state.pending.trim.isEmpty then [] else [complain "unexpected end of input".toList]
    .ok ⟨events, state.session, none⟩
  | .interrupt => .ok ⟨[.blank], state.session, some ⟨[], state.session⟩⟩
  | .line text =>
    if state.pending.isEmpty ∧ text.trim ∈ quitCommands then .ok ⟨[], state.session, none⟩
    else
      let pending := if state.pending.isEmpty then text else state.pending ++ '\n' :: text
      match readAll pending with
      | (es, none) => do
        let (events, session) ← evaluateAll state.session es
        return ⟨events, session, some ⟨[], session⟩⟩
      | (_, some err) =>
        if err.isIncomplete then .ok ⟨[], state.session, some ⟨pending, state.session⟩⟩
        else .ok ⟨[complain err.message], state.session, some ⟨[], state.session⟩⟩

/-- What a run of the loop shows, the session it leaves, and the inputs it leaves
unread. -/
structure Transcript where
  events : List Event
  session : Session Empty
  unread : List Input

/-- Show a prompt and react, until the loop ends. After the last input comes the end of
input. -/
def run (settings : Settings) (state : State) :
    List Input → Except (PrintError Empty) Transcript
  | [] => do
    let reaction ← react state .endOfInput
    return ⟨.prompt (state.prompt settings) :: reaction.events, reaction.session, []⟩
  | input :: inputs => do
    let reaction ← react state input
    let shown := .prompt (state.prompt settings) :: reaction.events
    match reaction.next with
    | none => return ⟨shown, reaction.session, inputs⟩
    | some state =>
      let rest ← run settings state inputs
      return { rest with events := shown ++ rest.events }

end Lisp.Repl
