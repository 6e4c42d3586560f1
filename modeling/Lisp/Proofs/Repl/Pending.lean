import Lisp.Proofs.Repl.Batch
import Mathlib.Data.List.Induction
import Mathlib.Data.List.Infix

/-! What is pending at a prompt. After each input the loop has nothing pending or a text that
ends too early, and no more of an input than this is kept. So a group of lines that cannot be
read, or that is interrupted, leaves nothing behind but what it shows. -/

namespace Lisp.Repl

/-- The text ends too early to be read. -/
def needsMore (s : Text) : Bool := (readAll (F := Empty) s).2.any ReadError.isIncomplete

theorem needsMore_eq_true_iff {s : Text} :
    needsMore s = true ↔
      ∃ es err, readAll (F := Empty) s = (es, some err) ∧ err.isIncomplete = true := by
  rcases hRead : readAll (F := Empty) s with ⟨es, fault⟩
  rw [needsMore, hRead, Option.any_eq_true]
  constructor
  · rintro ⟨err, rfl, hMore⟩
    exact ⟨es, err, rfl, hMore⟩
  · rintro ⟨es', err, hSame, hMore⟩
    cases hSame
    exact ⟨err, rfl, hMore⟩

/-- White space alone is complete. -/
theorem trim_ne_nil_of_needsMore {s : Text} (hMore : needsMore s = true) : s.trim ≠ [] := by
  intro hTrim
  rw [needsMore, readAll_of_trim_eq_nil hTrim] at hMore
  cases hMore

/-- What is pending, if anything is, needs more input. -/
def State.Waits (state : State) : Prop := state.pending ≠ [] → needsMore state.pending = true

section

variable {settings : Settings} {state next : State} {session : Session Empty}

theorem State.Waits.needsMore_eq (hWaits : state.Waits) :
    needsMore state.pending = !state.pending.isEmpty := by
  cases hEmpty : state.pending.isEmpty with
  | false => exact hWaits (List.isEmpty_eq_false_iff.1 hEmpty)
  | true =>
      cases hMore : needsMore state.pending with
      | false => rfl
      | true =>
          refine absurd ?_ (trim_ne_nil_of_needsMore hMore)
          rw [List.isEmpty_iff.1 hEmpty, Text.trim_nil]

theorem State.Waits.isEmpty_trim (hWaits : state.Waits) :
    state.pending.trim.isEmpty = state.pending.isEmpty := by
  cases hEmpty : state.pending.isEmpty with
  | false =>
      have hMore := hWaits (List.isEmpty_eq_false_iff.1 hEmpty)
      exact List.isEmpty_eq_false_iff.2 (trim_ne_nil_of_needsMore hMore)
  | true =>
      rw [List.isEmpty_iff.1 hEmpty, Text.trim_nil]
      rfl

/-- Whatever the input, the loop keeps only text that needs more. -/
theorem Reacts.waits {input : Input} {events : List Event}
    (hReacts : Reacts state input ⟨events, session, some next⟩) : next.Waits := by
  cases hReacts with
  | collects hRead hMore => exact fun _ => needsMore_eq_true_iff.2 ⟨_, _, hRead, hMore⟩
  | drops | evaluates | refuses => exact fun hPending => absurd rfl hPending

theorem Reads.waits {inputs : List Input} {events : List Event} {last : State}
    (hReads : Reads settings state inputs events last) (hWaits : state.Waits) : last.Waits := by
  induction hReads with
  | nil => exact hWaits
  | cons hReact hLater ih => exact ih (react_eq_ok_iff.1 hReact).waits

theorem State.Waits.prompt_eq (hWaits : state.Waits) :
    state.prompt settings =
      if needsMore state.pending then settings.continuationPrompt else settings.prompt := by
  rw [hWaits.needsMore_eq, State.prompt]
  cases state.pending.isEmpty <;> rfl

/-- A line ends the loop exactly if it is a command to quit and nothing is pending. -/
theorem State.Waits.react_line_ends_iff (hWaits : state.Waits) (line : Text) :
    (∃ events session, react state (.line line) = .ok ⟨events, session, none⟩) ↔
      needsMore state.pending = false ∧ line.trim ∈ quitCommands := by
  rw [hWaits.needsMore_eq, Bool.not_eq_false', List.isEmpty_iff]
  constructor
  · rintro ⟨events, session, hReact⟩
    cases react_eq_ok_iff.1 hReact with
    | quits hPending hQuit => exact ⟨hPending, hQuit⟩
  · rintro ⟨hPending, hQuit⟩
    exact ⟨_, _, react_eq_ok_iff.2 (.quits hPending hQuit)⟩

/-- The end of input is a complaint exactly if something is pending. -/
theorem State.Waits.react_endOfInput (hWaits : state.Waits) :
    react state .endOfInput =
      .ok ⟨if needsMore state.pending then [complain "unexpected end of input".toList] else [],
        state.session, none⟩ := by
  rw [react, hWaits.isEmpty_trim, hWaits.needsMore_eq]
  cases state.pending.isEmpty <;> rfl

end

/-- Lines that belong together: none of their beginnings is complete. -/
def StaysOpen (lines : List Text) : Prop :=
  ∀ start, start <+: lines → start ≠ [] → needsMore (['\n'].intercalate start) = true

instance (lines : List Text) : Decidable (StaysOpen lines) :=
  decidable_of_iff
    (∀ start ∈ lines.inits, start ≠ [] → needsMore (['\n'].intercalate start) = true)
    (by simp only [StaysOpen, List.mem_inits])

/-- A group of inputs that comes to nothing, and what is shown for it: lines that cannot be read
together, or that an interrupt cuts off. Up to its last input it is not complete. -/
inductive DroppedGroup : List Input → Event → Prop where
  | fault {lines : List Text} {line : Text} {es : List Datum} {err : ReadError}
      (hOpen : StaysOpen lines)
      (hRead : readAll (['\n'].intercalate (lines ++ [line])) = (es, some err))
      (hHard : err.isIncomplete = false) :
      DroppedGroup (lines.map .line ++ [.line line]) (complain err.message)
  | interrupt {lines : List Text} (hOpen : StaysOpen lines) :
      DroppedGroup (lines.map .line ++ [.interrupt]) .blank

/-- The prompts before the inputs of a group. -/
def prompts (settings : Settings) : (count : Nat) → List Event
  | 0 => []
  | count + 1 =>
    .prompt settings.prompt :: List.replicate count (.prompt settings.continuationPrompt)

variable {settings : Settings} {session : Session Empty} {lines : List Text}

theorem prompts_succ (settings : Settings) (count : Nat) :
    prompts settings (count + 1) =
      prompts settings count ++
        [.prompt (if count = 0 then settings.prompt else settings.continuationPrompt)] := by
  cases count with
  | zero => rfl
  | succ count => simp [prompts, List.replicate_succ']

theorem intercalate_concat (hSome : lines ≠ []) (line : Text) :
    ['\n'].intercalate (lines ++ [line]) = ['\n'].intercalate lines ++ '\n' :: line := by
  induction lines with
  | nil => exact absurd rfl hSome
  | cons first lines ih =>
      cases lines with
      | nil => simp
      | cons next lines => simpa using ih (by simp)

namespace StaysOpen

theorem of_concat {line : Text} (hOpen : StaysOpen (lines ++ [line])) : StaysOpen lines :=
  fun start hPrefix => hOpen start (hPrefix.trans (List.prefix_append lines [line]))

/-- The lines are pending one after the other. -/
theorem joined_eq (hOpen : StaysOpen lines) (session : Session Empty) (line : Text) :
    State.joined ⟨['\n'].intercalate lines, session⟩ line =
      ['\n'].intercalate (lines ++ [line]) := by
  by_cases hNil : lines = []
  · rw [hNil, List.nil_append, List.intercalate_singleton]
    rfl
  · obtain ⟨es, err, hRead, -⟩ := needsMore_eq_true_iff.1 (hOpen lines List.prefix_rfl hNil)
    rw [State.joined_of_readAll hRead, intercalate_concat hNil]

theorem prompt_eq (hOpen : StaysOpen lines) (session : Session Empty) :
    State.prompt ⟨['\n'].intercalate lines, session⟩ settings =
      if lines.length = 0 then settings.prompt else settings.continuationPrompt := by
  cases lines with
  | nil => rfl
  | cons line lines =>
      have hMore := hOpen (line :: lines) List.prefix_rfl (List.cons_ne_nil line lines)
      have hWaits : State.Waits ⟨['\n'].intercalate (line :: lines), session⟩ := fun _ => hMore
      rw [hWaits.prompt_eq, if_pos hMore]
      rfl

/-- What the loop does after the lines shows after their prompts. -/
theorem reads_concat (hOpen : StaysOpen lines)
    (hReads : Reads settings ⟨[], session⟩ (lines.map .line) (prompts settings lines.length)
      ⟨['\n'].intercalate lines, session⟩)
    {input : Input} {shown : List Event} {later : Session Empty} {next : State}
    (hReacts : Reacts ⟨['\n'].intercalate lines, session⟩ input ⟨shown, later, some next⟩) :
    Reads settings ⟨[], session⟩ (lines.map .line ++ [input])
      (prompts settings (lines.length + 1) ++ shown) next := by
  rw [prompts_succ, ← hOpen.prompt_eq session, List.append_assoc, List.singleton_append]
  exact hReads.append (.single hReacts)

/-- The lines are read up to the last one, and all of them are pending. -/
theorem reads (hOpen : StaysOpen lines) :
    Reads settings ⟨[], session⟩ (lines.map .line) (prompts settings lines.length)
      ⟨['\n'].intercalate lines, session⟩ := by
  induction lines using List.reverseRecOn with
  | nil => exact .nil _
  | append_singleton lines line ih =>
      have hMore := hOpen (lines ++ [line]) List.prefix_rfl (by simp)
      obtain ⟨es, err, hRead, hIncomplete⟩ := needsMore_eq_true_iff.1 hMore
      rw [← hOpen.of_concat.joined_eq session] at hRead
      have hReads : Reads settings ⟨[], session⟩ _ _ _ :=
        hOpen.of_concat.reads_concat (ih hOpen.of_concat) (.collects hRead hIncomplete)
      rw [hOpen.of_concat.joined_eq, List.append_nil] at hReads
      rw [List.map_append, List.length_append]
      exact hReads

end StaysOpen

/-- A group that comes to nothing leaves the session as it was and nothing pending. -/
theorem DroppedGroup.reads {group : List Input} {event : Event}
    (hGroup : DroppedGroup group event) :
    Reads settings ⟨[], session⟩ group (prompts settings group.length ++ [event])
      ⟨[], session⟩ := by
  cases hGroup with
  | fault hOpen hRead hHard =>
      rw [← hOpen.joined_eq session] at hRead
      rw [List.length_append, List.length_map]
      exact hOpen.reads_concat hOpen.reads (.refuses hRead hHard)
  | interrupt hOpen =>
      rw [List.length_append, List.length_map]
      exact hOpen.reads_concat hOpen.reads .drops

/-- At every prompt of a run nothing is pending, or a text that needs more. The continuation prompt
and a complaint at the end of the input come in the second case only, and commands to quit are
known in the first case only. A group of inputs that comes to nothing where nothing is pending
makes no difference to the rest of the run, and only adds to what is shown. -/
theorem prompt_invariant_and_isolation (settings : Settings) (session : Session Empty)
    {inputs : List Input} {events : List Event} {state : State}
    (hReads : Reads settings ⟨[], session⟩ inputs events state) :
    (∀ later, run settings ⟨[], session⟩ (inputs ++ later) =
      (run settings state later).map (.after events)) ∧
    needsMore state.pending = !state.pending.isEmpty ∧
    state.prompt settings =
      (if needsMore state.pending then settings.continuationPrompt else settings.prompt) ∧
    (∀ line, (∃ shown left, react state (.line line) = .ok ⟨shown, left, none⟩) ↔
      needsMore state.pending = false ∧ line.trim ∈ quitCommands) ∧
    react state .endOfInput =
      .ok ⟨if needsMore state.pending then [complain "unexpected end of input".toList] else [],
        state.session, none⟩ ∧
    (state.pending = [] → ∀ group event, DroppedGroup group event → ∀ later,
      run settings ⟨[], session⟩ (inputs ++ group ++ later) =
        (run settings state later).map
          (.after (events ++ prompts settings group.length ++ [event]))) := by
  have hWaits : state.Waits := hReads.waits fun hPending => absurd rfl hPending
  refine ⟨hReads.run_append, hWaits.needsMore_eq, hWaits.prompt_eq, hWaits.react_line_ends_iff,
    hWaits.react_endOfInput, fun hPending group event hGroup later => ?_⟩
  obtain ⟨pending, left⟩ := state
  cases hPending
  rw [List.append_assoc events]
  exact (hReads.append hGroup.reads).run_append later

theorem prompt_invariant_and_isolation_mismatched_closer :
    let registry : Registry Empty := Registry.builtin.extend [("bind!".toList, .binding)]
    let session : Session Empty := ⟨.empty, registry, 2⟩
    let bound : Session Empty := { session with env := Environment.empty.bindName ['a'] (.int 1) }
    let inputs : List Input := ["(bind! a".toList, "1)".toList].map .line
    let events : List Event := [.prompt "tl> ".toList, .prompt "... ".toList, .value ['1']]
    let group : List Input := ["(b #| c".toList, "|# ]".toList].map .line
    let complaint : Event := complain
      "Mismatched ']': list opened with '(' at offset 0 (at offset 11)".toList
    Reads {} ⟨[], session⟩ inputs events ⟨[], bound⟩ ∧ DroppedGroup group complaint ∧
      ∀ later, run {} ⟨[], session⟩ (inputs ++ group ++ later) =
        (run {} ⟨[], bound⟩ later).map
          (.after (events ++ [.prompt "tl> ".toList, .prompt "... ".toList, complaint])) := by
  intro registry session bound inputs events group complaint
  have hOpen : StaysOpen ["(bind! a".toList] := by decide +kernel
  have hWhole : readAll "(bind! a\n1)".toList =
      (([.ofList [.symbol "bind!".toList, .symbol ['a'], .int 1]] : List Datum), none) := by
    decide +kernel
  have hReport : Batch.report (session.run
      [.ofList [.symbol "bind!".toList, .symbol ['a'], .int 1]]) = .ok ⟨[['1']], none⟩ := by
    decide +kernel
  have hReads : Reads {} ⟨[], session⟩ inputs events ⟨[], bound⟩ :=
    hOpen.reads_concat hOpen.reads
      (.evaluates (by simp) hWhole (evaluateAll_of_report hReport))
  have hBegun : StaysOpen ["(b #| c".toList] := by decide +kernel
  have hFault : readAll (['\n'].intercalate (["(b #| c".toList] ++ ["|# ]".toList])) =
      (([] : List Datum), some (.mismatchedCloser .square .round 0 11)) := by decide +kernel
  have hGroup : DroppedGroup group complaint := .fault hBegun hFault rfl
  obtain ⟨-, -, -, -, -, hDropped⟩ := prompt_invariant_and_isolation {} session hReads
  exact ⟨hReads, hGroup, hDropped rfl group complaint hGroup⟩

end Lisp.Repl
