import Lisp.Proofs.Reader.FaultPosition
import Lisp.Proofs.Reader.Readable

/-! Reading the one expression of a text, next to reading all of them. Where reading all goes on
behind the first expression, reading one only looks at the next token. Main statement: it succeeds
exactly where there is one expression and no fault, and otherwise it has the fault of a text without
expressions or says what stands behind the first one. -/

namespace Lisp

variable {F : Type} {source : Text} {e : Expr F} {es : List (Expr F)} {fault : Option ReadError}

/-- What reading one expression says of what is left behind it. -/
def TokenStream.alone (e : Expr F) (rest : TokenStream) : Except ReadError (Expr F) :=
  match rest.tokens, rest.unclosedComment with
  | t :: _, _ => .error (.trailingInput t.offset)
  | [], some start => .error (.unclosedComment start)
  | [], none => .ok e

theorem read_of_next_eq_some {rest : TokenStream}
    (hNext : (lex source).next = (.ok (some e), rest)) : read source = rest.alone e := by
  obtain ⟨tokens, unclosedComment⟩ := rest
  rw [read, hNext]
  cases tokens with
  | cons t more => rfl
  | nil => cases unclosedComment <;> rfl

/-- Where there is no expression, reading one has the fault of reading all, or else misses an
expression. -/
theorem read_of_readAll_eq_nil (hAll : readAll source = (([] : List (Expr F)), fault)) :
    read (F := F) source = .error (fault.getD .nothingToRead) := by
  have hAnswer := TokenStream.next_of_all_nil hAll
  rcases hNext : (lex source).next (F := F) with ⟨answer, rest⟩
  rw [hNext] at hAnswer
  cases fault with
  | none =>
      obtain rfl : answer = .ok none := hAnswer
      rw [read, hNext]
      rfl
  | some err =>
      obtain rfl : answer = .error err := hAnswer
      rw [read, hNext]
      rfl

/-- The tokens of the first expression come first. Reading all goes on with what is left behind
them, and reading one judges by it. -/
theorem exists_derives_of_readAll_eq_cons (hAll : readAll source = (e :: es, fault)) :
    ∃ used rest, (lex source).tokens = used ++ rest ∧ Derives used e ∧
      (⟨rest, (lex source).unclosedComment⟩ : TokenStream).all = (es, fault) ∧
      read source = TokenStream.alone e ⟨rest, (lex source).unclosedComment⟩ := by
  obtain ⟨⟨rest, unclosedComment⟩, hNext, hRest⟩ := TokenStream.next_of_all_cons hAll
  obtain ⟨used, hTokens, rfl, hDerives⟩ := TokenStream.derives_of_nextWithin .nil hNext
  exact ⟨used, rest, hTokens, hDerives, hRest, read_of_next_eq_some hNext⟩

theorem TokenStream.alone_eq_error_iff {rest : TokenStream} {err : ReadError} :
    rest.alone e = .error err ↔
      (∃ t ∈ rest.tokens.head?, err = .trailingInput t.offset) ∨
        rest.tokens = [] ∧ ∃ start, rest.unclosedComment = some start ∧
          err = .unclosedComment start := by
  obtain ⟨tokens, unclosedComment⟩ := rest
  cases tokens <;> cases unclosedComment <;> simp [alone, eq_comm]

/-- Reading one expression of a text is reading all of them, where there is just one and no fault.
If there is none, it fails with the same fault, or else says, without a position, that there is
nothing to read. If there are some and it fails, then at the first token behind the tokens of the
first expression, or else, if no token follows, at the block comment that stays open there. -/
theorem read_iff_readAll_single (source : Text) :
    (∀ e : Expr F, read source = .ok e ↔ readAll source = ([e], none)) ∧
    (∀ fault, readAll source = (([] : List (Expr F)), fault) →
      read (F := F) source = .error (fault.getD .nothingToRead)) ∧
    ReadError.nothingToRead.position = none ∧
    ∀ (e : Expr F) (es : List (Expr F)) (fault : Option ReadError) (err : ReadError),
      readAll source = (e :: es, fault) → read (F := F) source = .error err →
        ∃ used rest, (lex source).tokens = used ++ rest ∧ Derives used e ∧
          ((∃ t ∈ rest.head?, err = .trailingInput t.offset ∧ err.position = some t.offset) ∨
            rest = [] ∧ es = [] ∧ fault = some err ∧
              ∃ start, CommentStaysOpen source start ∧ err = .unclosedComment start) := by
  refine ⟨fun e => read_eq_ok_iff, fun fault => read_of_readAll_eq_nil, rfl,
    fun e es fault err hAll hRead => ?_⟩
  obtain ⟨used, rest, hTokens, hDerives, hRest, hAlone⟩ := exists_derives_of_readAll_eq_cons hAll
  refine ⟨used, rest, hTokens, hDerives, ?_⟩
  rw [hAlone, TokenStream.alone_eq_error_iff] at hRead
  rcases hRead with ⟨t, hFirst, rfl⟩ | ⟨rfl, start, hOpen, rfl⟩
  · exact .inl ⟨t, hFirst, rfl, rfl⟩
  · have hEnd : TokenStream.all ⟨[], some start⟩ =
        (([] : List (Expr F)), some (.unclosedComment start)) :=
      TokenStream.all_of_next_lastAnswer rfl
    rw [hOpen, hEnd] at hRest
    cases hRest
    exact .inr ⟨rfl, rfl, rfl, start, unclosedComment_lex_iff_staysOpen.1 hOpen, rfl⟩

theorem read_iff_readAll_single_each_way :
    let single : Text := "; a\n(b . ()) #|c|# ".toList
    let nothing : Text := " #|a|# ; b".toList
    let incomplete : Text := "(a #|b|#".toList
    let trailing : Text := "nil ; a\n ) b".toList
    let comment : Text := "() #|a".toList
    read single = .ok (.ofList [.symbol ['b']] : Datum) ∧
      read (F := Empty) nothing = .error .nothingToRead ∧
      read (F := Empty) incomplete = .error (.unclosedList .round 0) ∧
      (∃ used rest, (lex trailing).tokens = used ++ rest ∧ Derives used (.nil : Datum) ∧
        ∃ t ∈ rest.head?, t.offset = 9) ∧
      CommentStaysOpen comment 3 := by
  intro single nothing incomplete trailing comment
  have hSingle : readAll single = ([(.ofList [.symbol ['b']] : Datum)], none) := by decide +kernel
  have hNothing : readAll nothing = (([] : List Datum), none) := by decide +kernel
  have hIncomplete : readAll incomplete = (([] : List Datum), some (.unclosedList .round 0)) := by
    decide +kernel
  have hTrailing : readAll trailing = ([(.nil : Datum)], some (.unexpectedCloser .round 9)) := by
    decide +kernel
  have hComment : readAll comment = ([(.nil : Datum)], some (.unclosedComment 3)) := by
    decide +kernel
  refine ⟨((read_iff_readAll_single single).1 _).2 hSingle,
    (read_iff_readAll_single nothing).2.1 _ hNothing,
    (read_iff_readAll_single incomplete).2.1 _ hIncomplete, ?_, ?_⟩
  · obtain ⟨used, rest, hTokens, hDerives, ⟨t, hFirst, hErr, -⟩ | ⟨-, -, hFault, -⟩⟩ :=
      (read_iff_readAll_single trailing).2.2.2 _ _ _ (.trailingInput 9) hTrailing
        (by decide +kernel)
    · exact ⟨used, rest, hTokens, hDerives, t, hFirst, (ReadError.trailingInput.inj hErr).symm⟩
    · cases hFault
  · obtain ⟨used, rest, -, -, ⟨t, -, hErr, -⟩ | ⟨-, -, -, start, hOpen, hErr⟩⟩ :=
      (read_iff_readAll_single comment).2.2.2 _ _ _ (.unclosedComment 3) hComment (by decide +kernel)
    · cases hErr
    · rw [ReadError.unclosedComment.inj hErr]
      exact hOpen

end Lisp
