import Lisp.Editor.Documents
import Lisp.Proofs.Editor.Analysis
import Lisp.Proofs.Environment.Bindings
import Mathlib.Data.List.Forall2

/-! The documents of an editor after any events. What a document is, and what is published for it,
comes from its own last event, so nothing is ever out of date and no document has a part in what is
known of another. -/

namespace Lisp.Editor

/-- The newest of the values that are noted for an address. -/
def newest? {α : Type} (address : Text) (log : List (Text × α)) : Option α :=
  (log.filter (·.1 = address)).getLast?.map Prod.snd

@[simp] theorem newest?_nil {α : Type} (address : Text) :
    newest? address ([] : List (Text × α)) = none := rfl

theorem newest?_cons {α : Type} (address owner : Text) (value : α) (log : List (Text × α)) :
    newest? address ((owner, value) :: log) =
      (newest? address log).or (if owner = address then some value else none) := by
  by_cases hOwner : owner = address
  · simp only [newest?, List.filter_cons, hOwner, decide_true, if_true, List.getLast?_cons]
    cases (log.filter (·.1 = address)).getLast? <;> rfl
  · simp [newest?, hOwner]

/-- The text that a document has after an event, if it is open then. -/
def DocumentEvent.text? : DocumentEvent → Option Text
  | .opened text | .changed text => some text
  | .closed => none

theorem DocumentEvent.ne_closed_iff {event : DocumentEvent} :
    event ≠ .closed ↔ ∃ text, event.text? = some text := by
  cases event <;> simp [text?]

/-- The latest text of a document that is open after these events. -/
def latestText? (address : Text) (events : List (Text × DocumentEvent)) : Option Text :=
  (newest? address events).bind DocumentEvent.text?

theorem isSome_latestText?_iff {address : Text} {events : List (Text × DocumentEvent)} :
    (latestText? address events).isSome = true ↔
      ∃ event, newest? address events = some event ∧ event ≠ .closed := by
  simp only [latestText?, Option.isSome_iff_exists, Option.bind_eq_some_iff,
    DocumentEvent.ne_closed_iff]
  exact exists_comm.trans (exists_congr fun event => exists_and_left)

/-- The mark is at the place of the problem, one column wide, and says the same. -/
structure Diagnostic.Marks (p : Problem) (mark : Diagnostic) : Prop where
  start_eq : mark.start = p.position
  stop_eq : mark.stop = ⟨p.position.line, p.position.column + 1⟩
  severity_eq : mark.severity = p.severity
  message_eq : mark.message = p.message

theorem Diagnostic.forall₂_marks_ofProblem (problems : List Problem) :
    List.Forall₂ Marks problems (problems.map ofProblem) := by
  rw [List.forall₂_map_right_iff, List.forall₂_same]
  exact fun p _ => ⟨rfl, rfl, rfl, rfl⟩

/-- After an event a document is this, if it is open, and these marks are published for it. -/
inductive Settles (budget : Nat) : DocumentEvent → Option Document → List Diagnostic → Prop where
  | text {event : DocumentEvent} {text : Text} {a : Analysis} (hText : event.text? = some text)
      (hAnalyze : analyze budget text = .ok a) :
      Settles budget event (some ⟨text, a⟩) (a.problems.map .ofProblem)
  | closed : Settles budget .closed none []

theorem Settles.unique {budget : Nat} {event : DocumentEvent} {doc? doc?' : Option Document}
    {marks marks' : List Diagnostic} (hSettles : Settles budget event doc? marks)
    (hSettles' : Settles budget event doc?' marks') : doc? = doc?' ∧ marks = marks' := by
  cases hSettles with
  | text hText hAnalyze =>
      cases hSettles' with
      | text hText' hAnalyze' =>
          rw [hText] at hText'
          cases hText'
          rw [hAnalyze] at hAnalyze'
          cases hAnalyze'
          exact ⟨rfl, rfl⟩
      | closed => cases hText
  | closed =>
      cases hSettles' with
      | text hText' hAnalyze' => cases hText'
      | closed => exact ⟨rfl, rfl⟩

namespace Documents

variable {budget : Nat}

theorem handle_of_text? {docs : Documents} {address text : Text} {event : DocumentEvent}
    {a : Analysis} (hText : event.text? = some text) (hAnalyze : analyze budget text = .ok a) :
    docs.handle budget address event =
      .ok (a.problems.map .ofProblem, docs.insert address ⟨text, a⟩) := by
  cases event with
  | opened | changed =>
      cases hText
      rw [handle, hAnalyze]
      rfl
  | closed => cases hText

/-- An event always has an effect, which is on its own document alone. -/
theorem exists_handle (budget : Nat) (docs : Documents) (address : Text) (event : DocumentEvent) :
    ∃ doc? marks next, docs.handle budget address event = .ok (marks, next) ∧
      Settles budget event doc? marks ∧
      ∀ other, next.get? other = if other = address then doc? else docs.get? other := by
  cases hText : event.text? with
  | some text =>
      obtain ⟨a, hAnalyze, -⟩ := exists_agrees budget text
      exact ⟨_, _, _, handle_of_text? hText hAnalyze, .text hText hAnalyze,
        fun other => Bindings.get?_insert ..⟩
  | none =>
      cases event with
      | opened | changed => cases hText
      | closed => exact ⟨_, _, _, rfl, .closed, fun other => Bindings.get?_erase ..⟩

/-- What is published while events happen, each with the address of its document, and the
documents after them. -/
def handleAll (budget : Nat) (docs : Documents) : List (Text × DocumentEvent) →
    Except (PrintError Empty) (List (Text × List Diagnostic) × Documents)
  | [] => .ok ([], docs)
  | (address, event) :: later => do
    let (marks, next) ← docs.handle budget address event
    let (published, last) ← next.handleAll budget later
    return ((address, marks) :: published, last)

theorem handleAll_cons {docs next last : Documents} {address : Text} {event : DocumentEvent}
    {marks : List Diagnostic} {later : List (Text × DocumentEvent)}
    {published : List (Text × List Diagnostic)}
    (hHandle : docs.handle budget address event = .ok (marks, next))
    (hLater : next.handleAll budget later = .ok (published, last)) :
    docs.handleAll budget ((address, event) :: later) =
      .ok ((address, marks) :: published, last) := by
  rw [handleAll, hHandle]
  simp only [bind, Except.bind, hLater]
  rfl

/-- A document that was like this before is so after its last event, if there is any, and this is
the last that is published for it. -/
inductive Follows (budget : Nat) (before : Option Document) :
    Option DocumentEvent → Option Document → Option (List Diagnostic) → Prop where
  | untouched : Follows budget before none before none
  | settled {event : DocumentEvent} {doc? : Option Document} {marks : List Diagnostic}
      (hSettles : Settles budget event doc? marks) :
      Follows budget before (some event) doc? (some marks)

namespace Follows

variable {before between after : Option Document} {event? : Option DocumentEvent}
  {marks? : Option (List Diagnostic)}

theorem cons {event : DocumentEvent} {marks : List Diagnostic}
    (hFirst : Settles budget event between marks)
    (hLater : Follows budget between event? after marks?) :
    Follows budget before (event?.or (some event)) after (marks?.or (some marks)) := by
  cases hLater with
  | untouched => exact .settled hFirst
  | settled hSettles => exact .settled hSettles

/-- A document with a text has the analysis of this text, and the marks of its problems. -/
theorem of_text {text : Text} (hFollows : Follows budget none event? after marks?)
    (hText : event?.bind DocumentEvent.text? = some text) :
    ∃ a, analyze budget text = .ok a ∧ after = some ⟨text, a⟩ ∧
      marks? = some (a.problems.map .ofProblem) := by
  cases hFollows with
  | untouched => cases hText
  | settled hSettles =>
      cases hSettles with
      | text hText' hAnalyze =>
          rw [Option.bind_some, hText'] at hText
          cases hText
          exact ⟨_, hAnalyze, rfl, rfl⟩
      | closed => cases hText

/-- A document without a text is not there, and no marks are left of it. -/
theorem of_no_text (hFollows : Follows budget none event? after marks?)
    (hText : event?.bind DocumentEvent.text? = none) :
    after = none ∧ marks? = event?.map fun _ => [] := by
  cases hFollows with
  | untouched => exact ⟨rfl, rfl⟩
  | settled hSettles =>
      cases hSettles with
      | text hText' hAnalyze =>
          rw [Option.bind_some, hText'] at hText
          cases hText
      | closed => exact ⟨rfl, rfl⟩

end Follows

/-- Events always have their effect, and every document follows its own. -/
theorem exists_handleAll (budget : Nat) (docs : Documents) (events : List (Text × DocumentEvent)) :
    ∃ published last, docs.handleAll budget events = .ok (published, last) ∧
      ∀ address, Follows budget (docs.get? address) (newest? address events) (last.get? address)
        (newest? address published) := by
  induction events generalizing docs with
  | nil => exact ⟨[], docs, rfl, fun address => .untouched⟩
  | cons entry later ih =>
      obtain ⟨owner, event⟩ := entry
      obtain ⟨doc?, marks, next, hHandle, hSettles, hGet⟩ := docs.exists_handle budget owner event
      obtain ⟨published, last, hLater, hFollows⟩ := ih next
      refine ⟨_, last, handleAll_cons hHandle hLater, fun address => ?_⟩
      have hAddress := hFollows address
      rw [hGet] at hAddress
      rw [newest?_cons, newest?_cons]
      by_cases hOwner : address = owner
      · subst hOwner
        rw [if_pos rfl] at hAddress
        rw [if_pos rfl, if_pos rfl]
        exact hAddress.cons hSettles
      · rw [if_neg hOwner] at hAddress
        rwa [if_neg (Ne.symm hOwner), if_neg (Ne.symm hOwner), Option.or_none, Option.or_none]

/-- A document does not depend on the events of other documents. -/
theorem handleAll_filter {docs alone last : Documents} {address : Text}
    (hSame : docs.get? address = alone.get? address) {events : List (Text × DocumentEvent)}
    {published : List (Text × List Diagnostic)}
    (hAll : docs.handleAll budget events = .ok (published, last)) :
    ∃ lastAlone, alone.handleAll budget (events.filter (·.1 = address)) =
        .ok (published.filter (·.1 = address), lastAlone) ∧
      last.get? address = lastAlone.get? address := by
  induction events generalizing docs alone published with
  | nil =>
      cases hAll
      exact ⟨alone, rfl, hSame⟩
  | cons entry later ih =>
      obtain ⟨owner, event⟩ := entry
      obtain ⟨doc?, marks, next, hHandle, hSettles, hGet⟩ := docs.exists_handle budget owner event
      obtain ⟨later', last', hLater, -⟩ := next.exists_handleAll budget later
      rw [handleAll_cons hHandle hLater] at hAll
      cases hAll
      by_cases hOwner : owner = address
      · subst hOwner
        obtain ⟨doc?', marks', nextAlone, hHandle', hSettles', hGet'⟩ :=
          alone.exists_handle budget owner event
        obtain ⟨rfl, rfl⟩ := hSettles.unique hSettles'
        have hNext : next.get? owner = nextAlone.get? owner := by
          rw [hGet, hGet', if_pos rfl, if_pos rfl]
        obtain ⟨lastAlone, hAlone, hLast⟩ := ih hNext hLater
        refine ⟨lastAlone, ?_, hLast⟩
        rw [List.filter_cons_of_pos (by simp), List.filter_cons_of_pos (by simp)]
        exact handleAll_cons hHandle' hAlone
      · have hNext : next.get? address = alone.get? address := by
          rw [hGet, if_neg (Ne.symm hOwner), hSame]
        obtain ⟨lastAlone, hAlone, hLast⟩ := ih hNext hLater
        refine ⟨lastAlone, ?_, hLast⟩
        rwa [List.filter_cons_of_neg (by simpa using hOwner),
          List.filter_cons_of_neg (by simpa using hOwner)]

theorem hover_of_get?_eq {docs docs' : Documents} {address address' : Text}
    (hSame : docs.get? address = docs'.get? address') (place : Position) :
    docs.hover address place = docs'.hover address' place := by
  rw [hover, hover, hSame]

/-- What there is to show at a place of a text, in an editor that has no other document. -/
def hoverIn (budget : Nat) (text : Text) (place : Position) : Option Text :=
  match handle budget .empty [] (.opened text) with
  | .ok (_, docs) => docs.hover [] place
  | .error _ => none

theorem hover_eq_hoverIn {docs : Documents} {address text : Text} {a : Analysis}
    (hAnalyze : analyze budget text = .ok a) (hGet : docs.get? address = some ⟨text, a⟩)
    (place : Position) : docs.hover address place = hoverIn budget text place := by
  rw [hoverIn, handle_of_text? rfl hAnalyze]
  apply hover_of_get?_eq
  rw [hGet, Bindings.get?_insert, if_pos rfl]

theorem hover_of_get?_eq_none {docs : Documents} {address : Text} (hGet : docs.get? address = none)
    (place : Position) : docs.hover address place = none := by
  rw [hover, hGet]
  rfl

/-- Whatever is opened, changed and closed in any order, what an editor knows of a document is never
out of date. A document is there exactly if its last event gave it a text. Then its analysis is that
of its latest text, the marks that were last published for it are those of the problems of this
analysis, one for each and in order, and what is shown at a place of it depends on its latest text
and the place alone. Otherwise the marks that were published are gone, and there is nothing to show.
The events of other documents have no part in any of this. -/
theorem handleAll_follows_latest_text (budget : Nat) (events : List (Text × DocumentEvent)) :
    ∃ (published : List (Text × List Diagnostic)) (docs : Documents),
      handleAll budget .empty events = .ok (published, docs) ∧
      ∀ address : Text,
        (docs.contains address = true ↔
          ∃ event, newest? address events = some event ∧ event ≠ .closed) ∧
        (∀ text, latestText? address events = some text →
          ∃ a marks, analyze budget text = .ok a ∧ docs.get? address = some ⟨text, a⟩ ∧
            newest? address published = some marks ∧
            List.Forall₂ Diagnostic.Marks a.problems marks ∧
            ∀ place, docs.hover address place = hoverIn budget text place) ∧
        (latestText? address events = none →
          newest? address published = (newest? address events).map (fun _ => []) ∧
            ∀ place, docs.hover address place = none) ∧
        ∃ alone, handleAll budget .empty (events.filter (·.1 = address)) =
            .ok (published.filter (·.1 = address), alone) ∧
          docs.get? address = alone.get? address := by
  obtain ⟨published, docs, hAll, hFollows⟩ := exists_handleAll budget .empty events
  refine ⟨published, docs, hAll, fun address => ?_⟩
  have hAddress : Follows budget none (newest? address events) (docs.get? address)
      (newest? address published) := hFollows address
  refine ⟨?_, fun text hText => ?_, fun hText => ?_, handleAll_filter rfl hAll⟩
  · rw [← isSome_latestText?_iff, Bindings.contains]
    cases hText : latestText? address events with
    | some text =>
        obtain ⟨a, -, hGet, -⟩ := hAddress.of_text hText
        simp [hGet]
    | none => simp [(hAddress.of_no_text hText).1]
  · obtain ⟨a, hAnalyze, hGet, hMarks⟩ := hAddress.of_text hText
    exact ⟨a, _, hAnalyze, hGet, hMarks, Diagnostic.forall₂_marks_ofProblem a.problems,
      hover_eq_hoverIn hAnalyze hGet⟩
  · obtain ⟨hGet, hMarks⟩ := hAddress.of_no_text hText
    exact ⟨hMarks, hover_of_get?_eq_none hGet⟩

theorem handleAll_follows_latest_text_reopened :
    let a : Text := ['a']
    let b : Text := ['b']
    let events : List (Text × DocumentEvent) := [(a, .opened "(if 1 2 3)".toList),
      (b, .changed ['5']), (a, .closed), (a, .changed "7 )".toList), (b, .closed), (b, .closed)]
    let closer : Problem := ⟨⟨0, 2⟩, "Unexpected ')' (at offset 2)".toList, .error⟩
    ∃ published docs, handleAll 2 .empty events = .ok (published, docs) ∧
      docs.contains a = true ∧ docs.hover a ⟨0, 0⟩ = some "=> 7".toList ∧
      (∃ marks, newest? a published = some marks ∧
        List.Forall₂ Diagnostic.Marks [closer] marks) ∧
      newest? b published = some [] ∧ docs.hover b ⟨0, 0⟩ = none := by
  intro a b events closer
  have hText : latestText? a events = some "7 )".toList := rfl
  have hAnalysis : analyze 2 "7 )".toList = .ok ⟨[closer], [⟨⟨0, 0⟩, ['7']⟩]⟩ := by decide +kernel
  have hHover : hoverIn 2 "7 )".toList ⟨0, 0⟩ = some "=> 7".toList := by decide +kernel
  obtain ⟨published, docs, hAll, hEach⟩ := handleAll_follows_latest_text 2 events
  obtain ⟨hOpen, hLatest, -, -⟩ := hEach a
  obtain ⟨analysis, marks, hAnalyze, -, hMarks, hProblems, hShown⟩ := hLatest _ hText
  obtain rfl := Except.ok.inj (hAnalyze.symm.trans hAnalysis)
  obtain ⟨-, -, hClosed, -⟩ := hEach b
  obtain ⟨hCleared, hNothing⟩ := hClosed rfl
  exact ⟨published, docs, hAll, hOpen.2 ⟨_, rfl, nofun⟩, (hShown _).trans hHover,
    ⟨marks, hMarks, hProblems⟩, hCleared, hNothing _⟩

end Documents

end Lisp.Editor
