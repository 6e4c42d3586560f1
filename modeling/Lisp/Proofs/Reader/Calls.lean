import Lisp.Lexer
import Lisp.Proofs.Expr.Equality
import Lisp.Proofs.Reader.OnePass
import Lisp.Reader.Buffer

/-! Calls to a stream of tokens, in any order and also after errors. What a stream answers depends
on the tokens that are still to come and not on which of them wait in the buffer. Main statement:
every token is taken by one call, in order, and to look at a token changes no other answer. -/

namespace Lisp

variable {F : Type}

deriving instance DecidableEq for Answer

namespace TokenStream

/-- The answer to a call and the stream after it, where there is no buffer. -/
def perform (s : TokenStream) : Call → Answer F × TokenStream
  | .peek => (.token s.peek.1, s.peek.2)
  | .advance => (.token s.advance.1, s.advance.2)
  | .next => (.expr s.next.1, (s.next (F := F)).2)

/-- A peek that does not fail leaves the stream as it is. -/
theorem snd_peek {s : TokenStream} (hPeek : ∀ err, s.peek.1 ≠ .error err) : s.peek.2 = s := by
  obtain ⟨tokens, unclosedComment⟩ := s
  cases tokens with
  | cons t rest => rfl
  | nil =>
      cases unclosedComment with
      | none => rfl
      | some start => exact absurd rfl (hPeek _)

end TokenStream

namespace BufferedStream

/-- An expression is read as if there were no buffer. -/
theorem nextWithin_remaining (stack : List (OpenList F)) (s : BufferedStream) :
    ((s.nextWithin stack).1, (s.nextWithin stack).2.remaining) =
      TokenStream.nextWithin s.remaining.unclosedComment stack s.remaining.tokens := by
  fun_induction nextWithin stack s with
  | case1 stack s err rest hAdvance =>
      have hRemaining := s.advance_remaining
      rw [hAdvance] at hRemaining
      obtain ⟨start, hEmpty, rfl, hRest⟩ := TokenStream.exists_start_of_advance hRemaining.symm
      rw [hEmpty]
      exact Prod.ext rfl hRest
  | case2 stack s rest hAdvance =>
      have hRemaining := s.advance_remaining
      rw [hAdvance] at hRemaining
      obtain ⟨hEmpty, hRest⟩ := TokenStream.eq_empty_of_advance hRemaining.symm
      rw [hEmpty]
      exact Prod.ext rfl hRest
  | case3 stack s t rest hAdvance stack' hOf ih =>
      rw [remaining_eq_cons hAdvance, ih]
      simp [TokenStream.cons, TokenStream.nextWithin_cons, hOf]
  | case4 stack s t rest hAdvance e hOf =>
      rw [remaining_eq_cons hAdvance]
      simp [TokenStream.cons, TokenStream.nextWithin_cons, hOf]
  | case5 stack s t rest hAdvance err hOf =>
      rw [remaining_eq_cons hAdvance]
      simp [TokenStream.cons, TokenStream.nextWithin_cons, hOf]

/-- A call sees only the tokens that are still to come. -/
theorem perform_remaining (s : BufferedStream) (call : Call) :
    ((s.perform (F := F) call).1, (s.perform (F := F) call).2.remaining) =
      s.remaining.perform call := by
  cases call with
  | peek =>
      obtain ⟨hAnswer, hRest⟩ := Prod.ext_iff.1 s.peek_remaining
      exact Prod.ext (congrArg Answer.token hAnswer) hRest
  | advance =>
      obtain ⟨hAnswer, hRest⟩ := Prod.ext_iff.1 s.advance_remaining
      exact Prod.ext (congrArg Answer.token hAnswer) hRest
  | next =>
      obtain ⟨hAnswer, hRest⟩ := Prod.ext_iff.1 (nextWithin_remaining (F := F) [] s)
      exact Prod.ext (congrArg Answer.expr hAnswer) hRest

/-- Calls see only the tokens that are still to come. -/
theorem fst_performAll_congr {s s' : BufferedStream} (hSame : s.remaining = s'.remaining)
    (calls : List Call) : (s.performAll (F := F) calls).1 = (s'.performAll calls).1 := by
  induction calls generalizing s s' with
  | nil => rfl
  | cons call calls ih =>
      have hFirst := (s.perform_remaining (F := F) call).trans
        ((congrArg (TokenStream.perform · call) hSame).trans (s'.perform_remaining call).symm)
      obtain ⟨hAnswer, hRest⟩ := Prod.ext_iff.1 hFirst
      exact List.cons_eq_cons.2 ⟨hAnswer, ih hRest⟩

theorem fst_performAll_cons (s : BufferedStream) (call : Call) (calls : List Call) :
    (s.performAll (call :: calls)).1 =
      (s.perform (F := F) call).1 :: ((s.perform (F := F) call).2.performAll calls).1 :=
  rfl

theorem length_performAll (s : BufferedStream) (calls : List Call) :
    (s.performAll (F := F) calls).1.length = calls.length := by
  induction calls generalizing s with
  | nil => rfl
  | cons call calls ih => exact congrArg (· + 1) (ih _)

theorem performAll_append (s : BufferedStream) (calls later : List Call) :
    s.performAll (F := F) (calls ++ later) =
      ((s.performAll calls).1 ++ ((s.performAll (F := F) calls).2.performAll later).1,
        ((s.performAll (F := F) calls).2.performAll (F := F) later).2) := by
  induction calls generalizing s with
  | nil => rfl
  | cons call calls ih =>
      simp only [List.cons_append, performAll, ih]

end BufferedStream

/-- A call to a stream of tokens, its answer, and the tokens that it takes. -/
structure Exchange (F : Type) where
  call : Call
  answer : Answer F
  taken : List Token

/-- What a call finds in a stream, what it answers and takes, and what it leaves. -/
inductive Takes : TokenStream → Exchange F → TokenStream → Prop where
  | looked {t : Token} {rest : List Token} {unclosedComment : Option Nat} :
      Takes ⟨t :: rest, unclosedComment⟩ ⟨.peek, .token (.ok (some t)), []⟩
        ⟨t :: rest, unclosedComment⟩
  | advanced {t : Token} {rest : List Token} {unclosedComment : Option Nat} :
      Takes ⟨t :: rest, unclosedComment⟩ ⟨.advance, .token (.ok (some t)), [t]⟩
        ⟨rest, unclosedComment⟩
  /-- An expression takes its own tokens. -/
  | expr {used rest : List Token} {unclosedComment : Option Nat} {e : Expr F}
      (hDerives : Derives used e) :
      Takes ⟨used ++ rest, unclosedComment⟩ ⟨.next, .expr (.ok (some e)), used⟩
        ⟨rest, unclosedComment⟩
  /-- A fault takes the tokens of the lists that are open, and the token that is at fault. -/
  | fault {used rest : List Token} {unclosedComment : Option Nat} {t : Token}
      {stack : List (OpenList F)} {err : ReadError} (hOpen : StackDerives used stack)
      (hFail : ReadStep.ofToken stack t = .fail err) (hPosition : err.position = some t.offset)
      (hHard : err.isIncomplete = false) :
      Takes ⟨used ++ t :: rest, unclosedComment⟩ ⟨.next, .expr (.error err), used ++ [t]⟩
        ⟨rest, unclosedComment⟩
  /-- A list that is not closed takes all tokens. -/
  | unclosedList {used : List Token} {l : OpenList F} {outer : List (OpenList F)}
      (hOpen : StackDerives used (l :: outer)) :
      Takes ⟨used, none⟩ ⟨.next, .expr (.error (.unclosedList l.bracket l.offset)), used⟩
        ⟨[], none⟩
  /-- The lexer fails after all tokens, and they are taken if they are not an expression. -/
  | unclosedComment {used : List Token} {start : Nat} {stack : List (OpenList F)}
      (hOpen : StackDerives used stack) :
      Takes ⟨used, some start⟩ ⟨.next, .expr (.error (.unclosedComment start)), used⟩ ⟨[], none⟩
  | lexerFault {call : Call} {start : Nat} (hToken : call ≠ .next) :
      Takes ⟨[], some start⟩ ⟨call, .token (.error (.unclosedComment start)), []⟩ ⟨[], none⟩
  | atEnd (call : Call) : Takes ⟨[], none⟩ ⟨call, .atEnd call, []⟩ ⟨[], none⟩

theorem StackDerives.ne_nil {tokens : List Token} {l : OpenList F} {outer : List (OpenList F)}
    (hStack : StackDerives tokens (l :: outer)) : tokens ≠ [] := by
  cases hStack with
  | cons hOuter hInner => cases hInner <;> simp

/-- Calls one after the other, each to what the call before it leaves. -/
inductive Exchanges : TokenStream → List (Exchange F) → TokenStream → Prop where
  | done (s : TokenStream) : Exchanges s [] s
  | call {s later last : TokenStream} {x : Exchange F} {xs : List (Exchange F)}
      (hTakes : Takes s x later) (hMore : Exchanges later xs last) : Exchanges s (x :: xs) last

theorem exists_takes_nextWithin {read : List Token} {stack : List (OpenList F)}
    (hStack : StackDerives read stack) (unclosedComment : Option Nat) (tokens : List Token) :
    ∃ taken, Takes ⟨read ++ tokens, unclosedComment⟩
      ⟨.next, .expr (TokenStream.nextWithin unclosedComment stack tokens).1, read ++ taken⟩
      (TokenStream.nextWithin unclosedComment stack tokens).2 := by
  induction tokens generalizing read stack with
  | nil =>
      refine ⟨[], ?_⟩
      rw [List.append_nil]
      cases unclosedComment with
      | some start => exact .unclosedComment hStack
      | none =>
          cases stack with
          | nil =>
              cases hStack
              exact .atEnd .next
          | cons l outer => exact .unclosedList hStack
  | cons t rest ih =>
      have hStep := ReadStep.derives_ofToken hStack t
      rw [TokenStream.nextWithin_cons]
      cases hOf : ReadStep.ofToken stack t with
      | more stack' =>
          rw [hOf] at hStep
          obtain ⟨taken, hTakes⟩ := ih hStep
          exact ⟨t :: taken, by simpa using hTakes⟩
      | done e =>
          rw [hOf] at hStep
          exact ⟨[t], by simpa using Takes.expr hStep⟩
      | fail err =>
          obtain ⟨hPosition, hHard⟩ := ReadStep.ofToken_eq_fail hOf
          exact ⟨[t], .fault hStack hOf hPosition hHard⟩

theorem exists_takes_perform (s : TokenStream) (call : Call) :
    ∃ taken, Takes s ⟨call, (s.perform (F := F) call).1, taken⟩ (s.perform (F := F) call).2 := by
  obtain ⟨tokens, unclosedComment⟩ := s
  cases call with
  | next => exact exists_takes_nextWithin .nil unclosedComment tokens
  | peek =>
      cases tokens with
      | cons t rest => exact ⟨[], .looked⟩
      | nil =>
          cases unclosedComment with
          | some start => exact ⟨[], .lexerFault (by decide)⟩
          | none => exact ⟨[], .atEnd .peek⟩
  | advance =>
      cases tokens with
      | cons t rest => exact ⟨[t], .advanced⟩
      | nil =>
          cases unclosedComment with
          | some start => exact ⟨[], .lexerFault (by decide)⟩
          | none => exact ⟨[], .atEnd .advance⟩

namespace Takes

variable {s later : TokenStream} {x : Exchange F}

/-- What a call takes stands in front of what it leaves. -/
theorem tokens_eq (hTakes : Takes s x later) : s.tokens = x.taken ++ later.tokens := by
  cases hTakes <;> simp

/-- The lexer fails only with what it is left to fail with, and nothing is left after it. -/
theorem of_lexerFault (hTakes : Takes s x later) {start : Nat}
    (hFault : x.answer.error? = some (.unclosedComment start)) :
    s.unclosedComment = some start ∧ later = ⟨[], none⟩ := by
  cases hTakes with
  | fault hOpen hFail hPosition hHard =>
      cases hFault
      cases hHard
  | unclosedComment | lexerFault =>
      cases hFault
      exact ⟨rfl, rfl⟩
  | atEnd call => cases call <;> cases hFault
  | _ => cases hFault

theorem unclosedComment_eq (hTakes : Takes s x later) {start : Nat}
    (hStart : later.unclosedComment = some start) : s.unclosedComment = some start := by
  cases hTakes with
  | unclosedList | unclosedComment | lexerFault | atEnd => cases hStart
  | _ => exact hStart

theorem of_atEnd (hTakes : Takes ⟨[], none⟩ x later) :
    x.answer = .atEnd x.call ∧ later = ⟨[], none⟩ := by
  generalize hEmpty : (⟨[], none⟩ : TokenStream) = s at hTakes
  cases hTakes with
  | atEnd call => exact ⟨rfl, rfl⟩
  | expr hDerives => simp [hDerives.ne_nil] at hEmpty
  | unclosedList hOpen => simp [hOpen.ne_nil] at hEmpty
  | _ => simp at hEmpty

end Takes

namespace Exchanges

variable {s last : TokenStream} {xs : List (Exchange F)}

/-- The tokens that are taken are the first ones, in their order, and each is taken once. -/
theorem tokens_eq (hExchanges : Exchanges s xs last) :
    s.tokens = xs.flatMap Exchange.taken ++ last.tokens := by
  induction hExchanges with
  | done s => rfl
  | call hTakes hMore ih => rw [hTakes.tokens_eq, ih, List.flatMap_cons, List.append_assoc]

theorem of_atEnd (hExchanges : Exchanges ⟨[], none⟩ xs last) :
    ∀ x ∈ xs, x.answer = .atEnd x.call := by
  induction xs with
  | nil => simp
  | cons x xs ih =>
      cases hExchanges with
      | call hTakes hMore =>
          obtain ⟨hAnswer, rfl⟩ := hTakes.of_atEnd
          exact List.forall_mem_cons.2 ⟨hAnswer, ih hMore⟩

/-- After the fault of the lexer every call finds the end of the stream. -/
theorem of_lexerFault {before after : List (Exchange F)} {x : Exchange F}
    (hExchanges : Exchanges s (before ++ x :: after) last) {start : Nat}
    (hFault : x.answer.error? = some (.unclosedComment start)) :
    s.unclosedComment = some start ∧ ∀ y ∈ after, y.answer = .atEnd y.call := by
  induction before generalizing s with
  | nil =>
      cases hExchanges with
      | call hTakes hMore =>
          obtain ⟨hStart, rfl⟩ := hTakes.of_lexerFault hFault
          exact ⟨hStart, hMore.of_atEnd⟩
  | cons y before ih =>
      cases hExchanges with
      | call hTakes hMore =>
          obtain ⟨hStart, hAfter⟩ := ih hMore
          exact ⟨hTakes.unclosedComment_eq hStart, hAfter⟩

end Exchanges

namespace BufferedStream

/-- Calls to a stream are exchanges with the tokens that are still to come. -/
theorem exists_exchanges_performAll (s : BufferedStream) (calls : List Call) :
    ∃ xs : List (Exchange F), xs.map Exchange.call = calls ∧
      xs.map Exchange.answer = (s.performAll calls).1 ∧
      Exchanges s.remaining xs (s.performAll (F := F) calls).2.remaining := by
  induction calls generalizing s with
  | nil => exact ⟨[], rfl, rfl, .done _⟩
  | cons call calls ih =>
      obtain ⟨xs, hCalls, hAnswers, hExchanges⟩ := ih (s.perform (F := F) call).2
      obtain ⟨taken, hTakes⟩ := exists_takes_perform (F := F) s.remaining call
      rw [← perform_remaining] at hTakes
      exact ⟨_ :: xs, congrArg _ hCalls, congrArg _ hAnswers, .call hTakes hExchanges⟩

/-- What follows a peek that does not fail is answered as without it. -/
theorem fst_performAll_perform_peek {s : BufferedStream}
    (hPeek : (s.perform (F := F) .peek).1.error? = none) (calls : List Call) :
    ((s.perform (F := F) .peek).2.performAll (F := F) calls).1 = (s.performAll calls).1 := by
  apply fst_performAll_congr
  obtain ⟨hAnswer, hRest⟩ := Prod.ext_iff.1 s.peek_remaining
  refine hRest.trans (TokenStream.snd_peek fun err hError => ?_)
  have hFails : s.peek.1 = .error err := hAnswer.trans hError
  simp [perform, hFails, Answer.error?] at hPeek

/-- A peek that does not fail can be left out. -/
theorem fst_performAll_erase_peek {s : BufferedStream} {before after : List Call}
    {answers later : List (Answer F)} {answer : Answer F}
    (hAnswers : (s.performAll (before ++ .peek :: after)).1 = answers ++ answer :: later)
    (hLength : answers.length = before.length) (hAnswer : answer.error? = none) :
    (s.performAll (before ++ after)).1 = answers ++ later := by
  rw [performAll_append] at hAnswers
  obtain ⟨hBefore, hRest⟩ :=
    List.append_inj hAnswers ((s.length_performAll before).trans hLength.symm)
  rw [fst_performAll_cons] at hRest
  obtain ⟨hPeek, hLater⟩ := List.cons_eq_cons.1 hRest
  rw [← hPeek] at hAnswer
  rw [performAll_append, ← hBefore, ← hLater, fst_performAll_perform_peek hAnswer]

/-- A stream neither loses nor repeats tokens, whatever calls are made, in whatever order and after
whatever errors. Each call takes what its answer is made from, and together the calls take the first
tokens of the lexer, each of them once. After the lexer has failed, every call finds the end of the
stream. A peek that does not fail can be left out, and all other answers stay as they are. -/
theorem performAll_opened (lexer : TokenStream) (calls : List Call) :
    (∃ xs : List (Exchange F), xs.map Exchange.call = calls ∧
      xs.map Exchange.answer = ((opened lexer).performAll calls).1 ∧
      Exchanges lexer xs ((opened lexer).performAll (F := F) calls).2.remaining ∧
      lexer.tokens = xs.flatMap Exchange.taken ++
        ((opened lexer).performAll (F := F) calls).2.remaining.tokens ∧
      ∀ before x after start, xs = before ++ x :: after →
        x.answer.error? = some (.unclosedComment start) →
          lexer.unclosedComment = some start ∧ ∀ y ∈ after, y.answer = .atEnd y.call) ∧
    ∀ before after answers answer later, calls = before ++ .peek :: after →
      ((opened lexer).performAll calls).1 = answers ++ answer :: later →
        answers.length = before.length → (answer : Answer F).error? = none →
          ((opened lexer).performAll (before ++ after)).1 = answers ++ later := by
  constructor
  · obtain ⟨xs, hCalls, hAnswers, hExchanges⟩ :=
      exists_exchanges_performAll (F := F) (opened lexer) calls
    refine ⟨xs, hCalls, hAnswers, hExchanges, hExchanges.tokens_eq, ?_⟩
    rintro before x after start rfl hFault
    exact hExchanges.of_lexerFault hFault
  · rintro before after answers answer later rfl hAnswers hLength hAnswer
    exact fst_performAll_erase_peek hAnswers hLength hAnswer

theorem performAll_opened_through_faults :
    let lexer := lex "(. a) b #|".toList
    let before : List Call := [.next]
    let after : List Call := [.next, .next, .next, .advance, .peek, .next]
    let early : List (Answer Empty) := [.expr (.error (.unexpectedDot 1))]
    let late : List (Answer Empty) :=
      [.expr (.ok (some (.symbol ['a']))), .expr (.error (.unexpectedCloser .round 4)),
        .expr (.ok (some (.symbol ['b']))), .token (.error (.unclosedComment 8)),
        .token (.ok none), .expr (.ok none)]
    (∃ xs : List (Exchange Empty), xs.map Exchange.call = before ++ .peek :: after ∧
      xs.map Exchange.answer = early ++ .token (.ok (some ⟨.atom ['a'], 3⟩)) :: late ∧
      lexer.tokens = xs.flatMap Exchange.taken) ∧
    ((opened lexer).performAll (before ++ after)).1 = early ++ late := by
  intro lexer before after early late
  have hAnswers : ((opened lexer).performAll (before ++ .peek :: after)).1 =
      early ++ .token (.ok (some ⟨.atom ['a'], 3⟩)) :: late := by decide +kernel
  have hLeft : ((opened lexer).performAll (F := Empty)
      (before ++ .peek :: after)).2.remaining.tokens = [] := by decide +kernel
  obtain ⟨⟨xs, hCalls, hPerformed, -, hTokens, -⟩, hErase⟩ :=
    performAll_opened (F := Empty) lexer (before ++ .peek :: after)
  rw [hLeft, List.append_nil] at hTokens
  exact ⟨⟨xs, hCalls, hPerformed.trans hAnswers, hTokens⟩,
    hErase before after early _ late rfl hAnswers rfl rfl⟩

end BufferedStream

end Lisp
