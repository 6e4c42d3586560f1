import Lisp.Proofs.Reader.Grammar

/-! Reading a stream to its end or to its first fault. The expressions before a fault are those
that the grammar derives from the tokens before it, and a fault that is no lack of input stays
the same whatever tokens follow. -/

namespace Lisp.TokenStream

variable {F : Type}

variable {s later : TokenStream} {e : Expr F} {es fs : List (Expr F)} {err : Option ReadError}

/-- The answer with which reading all expressions ends. -/
def lastAnswer : Option ReadError → Except ReadError (Option (Expr F))
  | some err => .error err
  | none => .ok none

theorem all_of_next_lastAnswer
    (hNext : (next s : Except ReadError (Option (Expr F)) × TokenStream).1 = lastAnswer err) :
    s.all = (([] : List (Expr F)), err) := by
  rw [all]
  cases err <;> split <;> simp_all [lastAnswer]

theorem all_of_next_some (hNext : s.next = (.ok (some e), later)) (hLater : later.all = (es, err)) :
    s.all = (e :: es, err) := by
  rw [all]
  split <;> simp_all

theorem next_of_all_nil (hAll : s.all = (([] : List (Expr F)), err)) :
    (next s).1 = lastAnswer (F := F) err := by
  rw [all] at hAll
  split at hAll <;> cases err <;> simp_all [lastAnswer]

theorem next_of_all_cons (hAll : s.all = (e :: es, err)) :
    ∃ later, s.next = (.ok (some e), later) ∧ later.all = (es, err) := by
  rw [all] at hAll
  split at hAll
  · cases hAll
  · cases hAll
  · rename_i first later hNext
    simp only [Prod.mk.injEq, List.cons.injEq] at hAll
    obtain ⟨⟨rfl, hEs⟩, hErr⟩ := hAll
    exact ⟨later, hNext, Prod.ext hEs hErr⟩

/-- Expressions in front of other tokens are read first. -/
theorem all_append {used rest : List Token} {unclosedComment : Option Nat}
    (hUsed : DerivesAll used es) (hRest : all ⟨rest, unclosedComment⟩ = (fs, err)) :
    all ⟨used ++ rest, unclosedComment⟩ = (es ++ fs, err) := by
  induction es generalizing used with
  | nil =>
      cases hUsed
      exact hRest
  | cons e es ih =>
      cases hUsed with
      | @cons tokens more _ _ hHead hMore =>
          rw [List.append_assoc]
          exact all_of_next_some ((next_eq_ok_some_iff unclosedComment tokens _ e).2 hHead)
            (ih hMore)

/-- Reading derives its expressions one after the other, and then gets an answer that is no
expression. -/
theorem exists_derivesAll_of_all (hAll : s.all = (es, err)) :
    ∃ used rest, s.tokens = used ++ rest ∧ DerivesAll used es ∧
      (next ⟨rest, s.unclosedComment⟩).1 = lastAnswer (F := F) err := by
  induction es generalizing s with
  | nil => exact ⟨[], s.tokens, rfl, .nil, next_of_all_nil hAll⟩
  | cons e es ih =>
      obtain ⟨later, hNext, hLater⟩ := next_of_all_cons hAll
      obtain ⟨first, hFirst, hComment, hDerives⟩ := derives_of_nextWithin .nil hNext
      obtain ⟨used, rest, hTokens, hUsed, hLast⟩ := ih hLater
      refine ⟨first ++ used, rest, ?_, .cons hDerives hUsed, hComment ▸ hLast⟩
      rw [hFirst, hTokens, List.append_assoc]

/-- Reading gets to the end without a fault exactly if the grammar derives the expressions from
all tokens and no comment is open. -/
theorem all_eq_none_iff :
    s.all = (es, none) ↔ DerivesAll s.tokens es ∧ s.unclosedComment = none := by
  constructor
  · intro hAll
    obtain ⟨used, rest, hTokens, hUsed, hLast⟩ := exists_derivesAll_of_all hAll
    obtain ⟨rfl, hComment⟩ := eq_nil_of_nextWithin .nil hLast
    rw [hTokens, List.append_nil]
    exact ⟨hUsed, hComment⟩
  · rintro ⟨hAll, hComment⟩
    obtain ⟨tokens, unclosedComment⟩ := s
    cases hComment
    have hEnd : all ⟨[], none⟩ = (([] : List (Expr F)), none) := all_of_next_lastAnswer rfl
    simpa using all_append hAll hEnd

/-- A fault that more input cannot mend is found whatever tokens follow. -/
theorem nextWithin_append_of_error {unclosedComment unclosedComment' : Option Nat}
    {stack : List (OpenList F)} {tokens : List Token} {err : ReadError}
    (hNext : (nextWithin unclosedComment stack tokens).1 = .error err)
    (hHard : err.isIncomplete = false) (later : List Token) :
    (nextWithin unclosedComment' stack (tokens ++ later)).1 = .error err := by
  induction tokens generalizing stack with
  | nil =>
      -- At the end of the tokens there is only a lack of input to report.
      unfold nextWithin endOfInput at hNext
      split at hNext <;> cases hNext <;> cases hHard
  | cons t rest ih =>
      rw [List.cons_append, nextWithin_cons]
      rw [nextWithin_cons] at hNext
      cases hOf : ReadStep.ofToken stack t with
      | more stack' =>
          rw [hOf] at hNext
          exact ih hNext
      | done e => simp [hOf] at hNext
      | fail err' =>
          rw [hOf] at hNext
          exact hNext

/-- A stream with a fault that more input cannot mend is read the same way with any tokens
after it. -/
theorem all_append_of_error {fault : ReadError} (hAll : s.all = (es, some fault))
    (hHard : fault.isIncomplete = false) (later : TokenStream) :
    (⟨s.tokens ++ later.tokens, later.unclosedComment⟩ : TokenStream).all = (es, some fault) := by
  obtain ⟨used, rest, hTokens, hUsed, hLast⟩ := exists_derivesAll_of_all hAll
  have hFault : all ⟨rest ++ later.tokens, later.unclosedComment⟩ =
      (([] : List (Expr F)), some fault) :=
    all_of_next_lastAnswer (nextWithin_append_of_error hLast hHard later.tokens)
  rw [hTokens, List.append_assoc]
  simpa using all_append hUsed hFault

end Lisp.TokenStream
