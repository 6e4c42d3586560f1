import Lisp.Reader.Stream

/-! A stream of tokens whose lexer works only when it is asked. A token that has been looked at
waits in a buffer, so the calls that look at tokens and those that take them reach the lexer in
different ways. -/

namespace Lisp

namespace TokenStream

variable {s later : TokenStream}

theorem eq_cons_of_advance {t : Token} (hAdvance : s.advance = (.ok (some t), later)) :
    s = later.cons t := by
  obtain ⟨tokens, unclosedComment⟩ := s
  cases tokens with
  | nil => cases unclosedComment <;> cases hAdvance
  | cons u rest =>
      cases hAdvance
      rfl

theorem eq_empty_of_advance (hAdvance : s.advance = (.ok none, later)) :
    s = ⟨[], none⟩ ∧ later = ⟨[], none⟩ := by
  obtain ⟨tokens, unclosedComment⟩ := s
  cases tokens with
  | nil =>
      cases unclosedComment <;> cases hAdvance
      exact ⟨rfl, rfl⟩
  | cons u rest => cases hAdvance

/-- The one error is that of a comment without its end, and nothing is left after it. -/
theorem exists_start_of_advance {err : ReadError} (hAdvance : s.advance = (.error err, later)) :
    ∃ start, s = ⟨[], some start⟩ ∧ err = .unclosedComment start ∧ later = ⟨[], none⟩ := by
  obtain ⟨tokens, unclosedComment⟩ := s
  cases tokens with
  | nil =>
      cases unclosedComment <;> cases hAdvance
      exact ⟨_, rfl, rfl, rfl⟩
  | cons u rest => cases hAdvance

end TokenStream

/-- The tokens that have been looked at and not taken, and what the lexer has still to give. -/
structure BufferedStream where
  buffer : List Token
  lexer : TokenStream
  deriving DecidableEq, Repr

namespace BufferedStream

/-- The stream of a lexer that has not been asked yet. -/
def opened (lexer : TokenStream) : BufferedStream := ⟨[], lexer⟩

/-- The tokens that are still to come, whether or not they have been looked at. -/
def remaining (s : BufferedStream) : TokenStream :=
  ⟨s.buffer ++ s.lexer.tokens, s.lexer.unclosedComment⟩

@[simp] theorem remaining_opened (lexer : TokenStream) : (opened lexer).remaining = lexer := rfl

/-- The next token, which stays in the buffer. The lexer is asked if nothing is there. -/
def peek (s : BufferedStream) : Except ReadError (Option Token) × BufferedStream :=
  match s.buffer with
  | t :: _ => (.ok (some t), s)
  | [] =>
    match s.lexer.advance with
    | (.ok (some t), lexer) => (.ok (some t), ⟨[t], lexer⟩)
    | (answer, lexer) => (answer, ⟨[], lexer⟩)

/-- The next token, taken from the buffer, or else from the lexer. -/
def advance (s : BufferedStream) : Except ReadError (Option Token) × BufferedStream :=
  match s.buffer with
  | t :: rest => (.ok (some t), { s with buffer := rest })
  | [] => (s.lexer.advance.1, ⟨[], s.lexer.advance.2⟩)

/-- To look at a token does not change what is still to come. -/
theorem peek_remaining (s : BufferedStream) :
    (s.peek.1, s.peek.2.remaining) = s.remaining.peek := by
  obtain ⟨buffer, tokens, unclosedComment⟩ := s
  cases buffer with
  | cons t rest => rfl
  | nil =>
      cases tokens with
      | cons t rest => rfl
      | nil => cases unclosedComment <;> rfl

/-- Tokens are taken in their order, first those that have been looked at. -/
theorem advance_remaining (s : BufferedStream) :
    (s.advance.1, s.advance.2.remaining) = s.remaining.advance := by
  obtain ⟨buffer, tokens, unclosedComment⟩ := s
  cases buffer with
  | cons t rest => rfl
  | nil =>
      cases tokens with
      | cons t rest => rfl
      | nil => cases unclosedComment <;> rfl

theorem remaining_eq_cons {s rest : BufferedStream} {t : Token}
    (hAdvance : s.advance = (.ok (some t), rest)) : s.remaining = rest.remaining.cons t := by
  have hRemaining := s.advance_remaining
  rw [hAdvance] at hRemaining
  exact TokenStream.eq_cons_of_advance hRemaining.symm

variable {F : Type}

/-- Go on reading an expression where these lists are open, token by token. -/
def nextWithin (stack : List (OpenList F)) (s : BufferedStream) :
    Except ReadError (Option (Expr F)) × BufferedStream :=
  match _ : s.advance with
  | (.error err, rest) => (.error err, rest)
  | (.ok none, rest) => (TokenStream.endOfInput stack none, rest)
  | (.ok (some t), rest) =>
    match ReadStep.ofToken stack t with
    | .more stack => nextWithin stack rest
    | .done e => (.ok (some e), rest)
    | .fail err => (.error err, rest)
termination_by s.remaining.tokens.length
decreasing_by
  rename_i hAdvance
  simp [remaining_eq_cons hAdvance, TokenStream.cons]

/-- Read the next expression. There is none at the end of the stream. -/
def next (s : BufferedStream) : Except ReadError (Option (Expr F)) × BufferedStream :=
  s.nextWithin []

end BufferedStream

/-- What may be asked of a stream of tokens. -/
inductive Call where
  | peek
  | advance
  | next
  deriving DecidableEq, Repr

/-- What a stream of tokens answers: a token or an expression, or that there is none, or an
error. -/
inductive Answer (F : Type) where
  | token (answer : Except ReadError (Option Token))
  | expr (answer : Except ReadError (Option (Expr F)))

namespace Answer

variable {F : Type}

/-- The answer to a call where nothing is left. -/
def atEnd : Call → Answer F
  | .peek | .advance => token (.ok none)
  | .next => expr (.ok none)

/-- The error that an answer is, if it is one. -/
def error? : Answer F → Option ReadError
  | token (.error err) | expr (.error err) => some err
  | _ => none

end Answer

namespace BufferedStream

variable {F : Type}

/-- The answer to a call, and the stream after it. -/
def perform (s : BufferedStream) : Call → Answer F × BufferedStream
  | .peek => let (answer, rest) := s.peek; (.token answer, rest)
  | .advance => let (answer, rest) := s.advance; (.token answer, rest)
  | .next => let (answer, rest) := s.next; (.expr answer, rest)

/-- The answers to calls one after the other, and the stream after them. -/
def performAll (s : BufferedStream) : List Call → List (Answer F) × BufferedStream
  | [] => ([], s)
  | call :: calls =>
    let (answer, rest) := s.perform call
    let (answers, last) := rest.performAll calls
    (answer :: answers, last)

end BufferedStream

end Lisp
