import Lisp.Proofs.Server.Request
import Lisp.Server.Connection

/-! A connection answers the lines of its whole stream of bytes, however the stream is cut into
chunks. What carries the proof from chunk to chunk is that no newline is left in the buffer. -/

namespace Lisp.Server.Connection

/-- The lines that are requests: those that end in a newline and are not blank, without white
space at their ends. -/
def requestLines (b : Bytes) : List Bytes :=
  ((b.splitOn 0x0A).dropLast.map trim).filter (!·.isEmpty)

/-- Trimming a line takes away white space at its two ends, all of it and nothing else. -/
theorem exists_append_trim (b : Bytes) :
    (∃ before after, b = before ++ trim b ++ after ∧
      (∀ c ∈ before, isSpace c = true) ∧ ∀ c ∈ after, isSpace c = true) ∧
    (∀ c ∈ (trim b).head?, isSpace c = false) ∧ ∀ c ∈ (trim b).getLast?, isSpace c = false :=
  ⟨exists_append_trimEnds isSpace b, fun _ => eq_false_of_mem_head?_trimEnds,
    fun _ => eq_false_of_mem_getLast?_trimEnds⟩

/-- The responses to requests in order, each in the session that the one before it leaves. -/
def respondAll (s : Session Empty) : List Bytes → Except (PrintError Empty) (List Response)
  | [] => .ok []
  | line :: rest => do
    let handled ← handle s (.bytes line)
    return handled.response :: (← respondAll handled.session rest)

/-- The lines and what is left are the parts of the bytes between newlines. -/
theorem splitLines_concat (line : List UInt8) (b : Bytes) :
    (splitLines line b).1 ++ [(splitLines line b).2] =
      List.splitOnPPrepend (· == (0x0A : UInt8)) b line := by
  induction b generalizing line with
  | nil => simp [splitLines]
  | cons c rest ih =>
      rw [splitLines, List.splitOnPPrepend_cons_eq_if]
      by_cases hNewline : c = 0x0A
      · rw [if_pos hNewline, if_pos (by simpa using hNewline), List.cons_append, ih []]
        rfl
      · rw [if_neg hNewline, if_neg (by simpa using hNewline)]
        exact ih (c :: line)

theorem splitLines_fst (b : Bytes) : (splitLines [] b).1 = (b.splitOn 0x0A).dropLast := by
  have hParts : (splitLines [] b).1 ++ [(splitLines [] b).2] = b.splitOn 0x0A :=
    splitLines_concat [] b
  rw [← hParts, List.dropLast_concat]

/-- Bytes without a newline go on with the line under way. -/
theorem splitLines_append_of_not_mem {b : Bytes} (hNewline : 0x0A ∉ b) (line : List UInt8)
    (rest : Bytes) : splitLines line (b ++ rest) = splitLines (b.reverse ++ line) rest := by
  induction b generalizing line with
  | nil => rfl
  | cons c b ih =>
      rw [List.mem_cons, not_or] at hNewline
      rw [List.cons_append, splitLines, if_neg (Ne.symm hNewline.1), ih hNewline.2,
        List.reverse_cons, List.append_assoc]
      rfl

/-- Splitting goes on where the bytes before leave a line under way. -/
theorem splitLines_append (line : List UInt8) (b rest : Bytes) :
    splitLines line (b ++ rest) =
      ((splitLines line b).1 ++ (splitLines (splitLines line b).2.reverse rest).1,
        (splitLines (splitLines line b).2.reverse rest).2) := by
  induction b generalizing line with
  | nil => simp [splitLines]
  | cons c b ih =>
      rw [List.cons_append, splitLines, splitLines]
      split
      · rw [ih]
        rfl
      · exact ih (c :: line)

theorem not_mem_splitLines_snd {line : List UInt8} (hLine : 0x0A ∉ line) (b : Bytes) :
    0x0A ∉ (splitLines line b).2 := by
  induction b generalizing line with
  | nil => simpa [splitLines] using hLine
  | cons c b ih =>
      rw [splitLines]
      split
      · exact ih List.not_mem_nil
      · rename_i hNewline
        apply ih
        intro hMem
        rcases List.mem_cons.1 hMem with hEq | hMem
        · exact hNewline hEq.symm
        · exact hLine hMem

/-- Lines that come later are answered in the session that the earlier ones leave. -/
theorem answerAll_append (s : Session Empty) (lines later : List Bytes) :
    answerAll s (lines ++ later) = do
      let (responses, s) ← answerAll s lines
      let (more, s) ← answerAll s later
      return (responses ++ more, s) := by
  induction lines generalizing s with
  | nil =>
      simp only [List.nil_append, answerAll, bind, Except.bind]
      cases answerAll s later <;> rfl
  | cons line lines ih =>
      rw [List.cons_append, answerAll, answerAll]
      split
      · exact ih s
      · cases hHandle : handle s (.bytes (trim line)) with
        | error err => rfl
        | ok handled =>
            simp only [bind, Except.bind, ih]
            cases answerAll handled.session lines with
            | error err => rfl
            | ok answered =>
                simp only [pure, Except.pure]
                cases answerAll answered.2 later <;> rfl

/-- The answers to lines are the responses to those of them that are requests. -/
theorem answerAll_eq_respondAll (s : Session Empty) (lines : List Bytes) :
    (answerAll s lines).map Prod.fst =
      respondAll s ((lines.map trim).filter (!·.isEmpty)) := by
  induction lines generalizing s with
  | nil => rfl
  | cons line lines ih =>
      rw [answerAll, List.map_cons]
      by_cases hBlank : (trim line).isEmpty = true
      · rw [if_pos hBlank, List.filter_cons_of_neg (by simpa using hBlank)]
        exact ih s
      · rw [if_neg hBlank, List.filter_cons_of_pos (by simpa using hBlank), respondAll]
        cases handle s (.bytes (trim line)) with
        | error err => rfl
        | ok handled =>
            simp only [bind, Except.bind, ← ih]
            cases answerAll handled.session lines <;> rfl

/-- A connection with no newline in its buffer answers the lines of the buffer and the chunks
together. -/
theorem receiveAll_eq_answerAll {c : Connection} (hBuffer : 0x0A ∉ c.buffer)
    (chunks : List Bytes) :
    c.receiveAll chunks =
      (answerAll c.session (splitLines [] (c.buffer ++ chunks.flatten)).1).map Prod.fst := by
  induction chunks generalizing c with
  | nil =>
      rw [List.flatten_nil, splitLines_append_of_not_mem hBuffer]
      rfl
  | cons chunk rest ih =>
      have hLeft : 0x0A ∉ (splitLines [] (c.buffer ++ chunk)).2 :=
        not_mem_splitLines_snd List.not_mem_nil _
      rw [List.flatten_cons, ← List.append_assoc,
        splitLines_append [] (c.buffer ++ chunk) rest.flatten, answerAll_append, receiveAll,
        receive]
      generalize splitLines [] (c.buffer ++ chunk) = split at hLeft ⊢
      obtain ⟨lines, buffer⟩ := split
      cases hAnswer : answerAll c.session lines with
      | error err => simp [bind, Except.bind, Except.map, hAnswer]
      | ok answered =>
          have hRest := @ih ⟨buffer, answered.2⟩ hLeft
          rw [splitLines_append_of_not_mem hLeft, List.append_nil] at hRest
          simp only [hAnswer, bind, Except.bind, pure, Except.pure, hRest]
          cases answerAll answered.2 _ <;> rfl

theorem respondAll_eq_handleAll (s : Session Empty) (lines : List Bytes) :
    respondAll s lines =
      (handleAll s (lines.map .bytes)).map fun answers => answers.map Handled.response := by
  induction lines generalizing s with
  | nil => rfl
  | cons line lines ih =>
      rw [respondAll, List.map_cons, handleAll]
      cases handle s (.bytes line) with
      | error err => rfl
      | ok handled =>
          simp only [bind, Except.bind, ih]
          cases handleAll handled.session (lines.map .bytes) <;> rfl

/-- Every request of a fresh session is responded to as if it were the only one. -/
theorem exists_respondAll_fresh (budget : Nat) (lines : List Bytes) :
    ∃ responses, respondAll (.fresh budget) lines = .ok responses ∧
      List.Forall₂ (fun line response => ∃ handled,
        handle (.fresh budget) (.bytes line) = .ok handled ∧ handled.response = response)
        lines responses := by
  obtain ⟨answers, hAnswers, hEach⟩ := exists_handleAll_fresh budget (lines.map .bytes)
  refine ⟨answers.map Handled.response, ?_, ?_⟩
  · rw [respondAll_eq_handleAll, hAnswers]
    rfl
  · rw [List.forall₂_map_right_iff]
    rw [List.forall₂_map_left_iff] at hEach
    exact hEach.imp fun line handled hLine => ⟨handled, hLine.1, rfl⟩

theorem receiveAll_opened_eq_respondAll (budget : Nat) (chunks : List Bytes) :
    (opened budget).receiveAll chunks =
      respondAll (.fresh budget) (requestLines chunks.flatten) := by
  rw [receiveAll_eq_answerAll (c := opened budget) List.not_mem_nil, answerAll_eq_respondAll,
    splitLines_fst]
  rfl

/-- The responses on a new connection depend on the bytes alone, and not on how they are cut
into chunks: one response for each request among the lines, in order. -/
theorem receiveAll_opened (budget : Nat) (chunks : List Bytes) :
    (opened budget).receiveAll chunks =
        respondAll (.fresh budget) (requestLines chunks.flatten) ∧
      ∃ responses, (opened budget).receiveAll chunks = .ok responses ∧
        responses.length = (requestLines chunks.flatten).length := by
  refine ⟨receiveAll_opened_eq_respondAll budget chunks, ?_⟩
  obtain ⟨responses, hResponses, hEach⟩ :=
    exists_respondAll_fresh budget (requestLines chunks.flatten)
  exact ⟨responses, (receiveAll_opened_eq_respondAll budget chunks).trans hResponses,
    hEach.length_eq.symm⟩

/-- White space around a line is dropped, and so are a blank line and what is after the last
newline. -/
example : requestLines [0x20, 0x31, 0x0D, 0x0A, 0x20, 0x0A, 0x32, 0x0A, 0x33] = [[0x31], [0x32]] :=
  by decide

end Lisp.Server.Connection
