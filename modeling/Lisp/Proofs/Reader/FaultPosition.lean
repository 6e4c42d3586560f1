import Lisp.Proofs.Expr.Equality
import Lisp.Proofs.Lexer.Cut
import Lisp.Proofs.Lexer.Lossless
import Lisp.Proofs.Reader.Brackets
import Lisp.Proofs.Reader.Form
import Mathlib.Data.List.Basic

/-! Where the fault of a text is reported. Main statement: an open list is reported at the innermost
bracket that stays open, an open comment where the outermost one begins, and any other fault at the
first token with which the text cannot be read. -/

namespace Lisp

variable {F : Type}

/-- A block comment without its end begins at this offset of the text, outside every piece. -/
def CommentStaysOpen (source : Text) (offset : Nat) : Prop :=
  ∃ before body, source = before ++ '#' :: '|' :: body ∧ offset = before.length ∧
    IsCut before ('#' :: '|' :: body) ∧ NeverCloses body

/-- The lexer reports the one comment that stays open. -/
theorem unclosedComment_lex_iff_staysOpen {source : Text} {offset : Nat} :
    (lex source).unclosedComment = some offset ↔ CommentStaysOpen source offset := by
  constructor
  · intro hOpen
    induction source using piece_induction generalizing offset with
    | nil =>
        rw [lex, Lexer.lexFrom_nil] at hOpen
        cases hOpen
    | lastLine comment hLine =>
        rw [lex, Lexer.lexFrom_lastLine hLine] at hOpen
        cases hOpen
    | openComment body hNever =>
        rw [lex, Lexer.lexFrom_openComment hNever] at hOpen
        cases hOpen
        exact ⟨[], body, rfl, rfl, .start _, hNever⟩
    | piece piece rest kind hPiece ih =>
        rw [lex, hPiece.lexFrom_append, lexFrom_eq_shift, Nat.zero_add] at hOpen
        obtain ⟨later, hLater, rfl⟩ := Option.map_eq_some_iff.1 hOpen
        obtain ⟨before, body, rfl, rfl, hCut, hNever⟩ := ih hLater
        refine ⟨piece ++ before, body, by simp, ?_, .piece hPiece hCut, hNever⟩
        rw [List.length_append, Nat.add_comm]
  · rintro ⟨before, body, rfl, rfl, hCut, hNever⟩
    obtain ⟨tokens, -, hLex⟩ := hCut.exists_tokens 0
    rw [lex, hLex _ id, Lexer.lexFrom_openComment hNever, Nat.zero_add]
    rfl

/-- The text up to a token has the tokens before it, and the text up to its end has this token
too. -/
theorem exists_lex_take_of_mem_tokens {source : Text} {t : Token}
    (hMem : t ∈ (lex source).tokens) :
    ∃ used rest, (lex source).tokens = used ++ t :: rest ∧
      lex (source.take t.offset) = ⟨used, none⟩ ∧ lex (source.take t.stop) = ⟨used ++ [t], none⟩ := by
  obtain ⟨before, rest, hSource, hOffset, hCut, hPiece⟩ := exists_isCut_of_mem_tokens hMem
  obtain ⟨used, -, hLex⟩ := hCut.exists_tokens 0
  rw [Nat.zero_add, ← hOffset] at hLex
  have hEnds : EndsAtom rest → EndsAtom [] := fun _ => by simp [EndsAtom]
  have hToken : ∀ {more}, IsPiece more t.text (some t.kind) →
      Lexer.lexFrom t.offset (t.text ++ more) =
        (Lexer.lexFrom (t.offset + t.text.length) more).cons t :=
    fun hPiece => hPiece.lexFrom_token t.offset
  refine ⟨used, (Lexer.lexFrom (t.offset + t.text.length) rest).tokens, ?_, ?_, ?_⟩
  · rw [lex, hSource, hLex _ id, hToken hPiece]
    rfl
  · rw [hSource, hOffset, List.take_left, lex, ← List.append_nil before,
      hLex [] fun _ => by simp [EndsAtom], Lexer.lexFrom_nil]
    simp [TokenStream.append]
  · rw [hSource, Token.stop, hOffset, ← List.length_append, ← List.append_assoc, List.take_left, lex,
      ← List.append_nil t.text, hLex _ fun hRest => hRest.change_after hEnds,
      hToken (hPiece.change_rest hEnds), Lexer.lexFrom_nil]
    simp [TokenStream.append, TokenStream.cons]

namespace TokenStream

variable {unclosedComment : Option Nat} {stack : List (OpenList F)} {tokens : List Token}
  {err : ReadError}

/-- A fault that more input cannot mend is that of a token, and the tokens before it are read
without one. -/
theorem exists_token_of_faultWithin (hFault : faultWithin unclosedComment stack tokens = some err)
    (hHard : err.isIncomplete = false) :
    ∃ used t rest stack', tokens = used ++ t :: rest ∧ openAfter? stack used = some stack' ∧
      ReadStep.ofToken stack' t = .fail err := by
  fun_induction faultWithin unclosedComment stack tokens with
  | case1 stack err' hEnd =>
      -- At the end of the tokens there is only a lack of input to report.
      unfold endOfInput at hEnd
      split at hEnd <;> cases hEnd <;> cases hFault <;> cases hHard
  | case2 => cases hFault
  | case3 stack t rest next hOf ih =>
      obtain ⟨used, t', later, stack', rfl, hOpen, hFail⟩ := ih hFault
      refine ⟨t :: used, t', later, stack', rfl, ?_, hFail⟩
      rw [openAfter?, hOf]
      exact hOpen
  | case4 stack t rest e hOf ih =>
      obtain ⟨used, t', later, stack', rfl, hOpen, hFail⟩ := ih hFault
      refine ⟨t :: used, t', later, stack', rfl, ?_, hFail⟩
      rw [openAfter?, hOf]
      exact hOpen
  | case5 stack t rest err' hOf =>
      cases hFault
      exact ⟨[], t, rest, stack, rfl, rfl, hOf⟩

end TokenStream

/-- A token stands at one place only among the tokens of a text. -/
theorem eq_of_append_mem_tokens {source : Text} {t : Token} {used rest used' rest' : List Token}
    (hTokens : (lex source).tokens = used ++ t :: rest)
    (hTokens' : (lex source).tokens = used' ++ t :: rest') : used = used' ∧ rest = rest' := by
  have hOrder := (standsWithin_lex source).increasing
  rw [TokenStream.offsets, hTokens', List.map_append, List.map_cons, List.append_assoc] at hOrder
  obtain ⟨-, hAfter, hBefore⟩ := List.pairwise_append.1 hOrder
  have hUsed : t ∉ used' := fun hMem =>
    (hBefore _ (List.mem_map_of_mem hMem) t.offset (by simp)).false
  have hRest : t ∉ rest' := fun hMem =>
    (List.rel_of_pairwise_cons hAfter (List.mem_append_left _ (List.mem_map_of_mem hMem))).false
  obtain ⟨hFront, -, hBehind⟩ :=
    (List.append_cons_inj_of_notMem hUsed hRest).1 (hTokens'.symm.trans hTokens)
  exact ⟨hFront.symm, hBehind.symm⟩

/-- Where a bracket stays open, the text has this bracket. -/
theorem getElem?_of_staysOpen {source : Text} {b : Bracket} {offset : Nat}
    (hOpen : StaysOpen (lex source).tokens b offset) : source[offset]? = some b.opening := by
  obtain ⟨before, after, hTokens, -⟩ := hOpen
  have hMem : ⟨.opener b, offset⟩ ∈ (lex source).tokens := by simp [hTokens]
  obtain ⟨front, rest, hSource, hOffset, -⟩ := exists_isCut_of_mem_tokens hMem
  obtain rfl : offset = front.length := hOffset
  rw [hSource, List.getElem?_append_right (Nat.le_refl _), Nat.sub_self]
  rfl

/-- A fault that more input cannot mend is that of the first token with which the text cannot be
read: the text before it lacks at most its end, and the text up to its end has the same fault. -/
theorem exists_token_of_readAll {source : Text} {es : List (Expr F)} {err : ReadError}
    (hRead : readAll source = (es, some err)) (hHard : err.isIncomplete = false) :
    ∃ t ∈ (lex source).tokens, err.position = some t.offset ∧
      (∀ early ∈ (readAll (F := F) (source.take t.offset)).2, early.isIncomplete = true) ∧
      readAll (source.take t.stop) = (es, some err) := by
  have hFault := TokenStream.faultWithin_of_all hRead
  obtain ⟨used, t, rest, stack, hTokens, hOpen, hFail⟩ :=
    TokenStream.exists_token_of_faultWithin hFault hHard
  have hMem : t ∈ (lex source).tokens := by simp [hTokens]
  obtain ⟨used', rest', hTokens', hBefore, hThrough⟩ := exists_lex_take_of_mem_tokens hMem
  obtain ⟨rfl, rfl⟩ := eq_of_append_mem_tokens hTokens hTokens'
  refine ⟨t, hMem, (ReadStep.ofToken_eq_fail hFail).1, ?_, ?_⟩
  · rw [snd_readAll, hBefore, ← TokenStream.isSome_openAfter?_iff, hOpen]
    rfl
  · -- The fault is found at the token, and what follows the token changes nothing before it.
    rcases hFirst : readAll (F := F) (source.take t.stop) with ⟨fs, err'⟩
    have hSame : err' = some err := by
      rw [← TokenStream.faultWithin_of_all hFirst, hThrough,
        TokenStream.faultWithin_append_of_openAfter? hOpen, TokenStream.faultWithin, hFail]
    rw [hSame, readAll, hThrough] at hFirst
    have hWhole := TokenStream.all_append_of_error hFirst hHard ⟨rest, (lex source).unclosedComment⟩
    rw [List.append_assoc, List.singleton_append, ← hTokens] at hWhole
    rw [readAll, hWhole] at hRead
    rw [hSame, (Prod.mk.inj hRead).1]

/-- Every fault of a text is reported at a position in it. If a list is not closed, that is the
innermost bracket that stays open, and if a block comment has no end, it is where the outermost such
comment begins. Any other fault is reported at a token: up to the token the text has no fault but a
lack of input, and with the token it has this one. -/
theorem readAll_reports_position {source : Text} {es : List (Expr F)} {err : ReadError}
    (hRead : readAll source = (es, some err)) :
    ∃ position, err.position = some position ∧ position < source.length ∧
      (∀ b, err = .unclosedList b position →
        source[position]? = some b.opening ∧ StaysOpen (lex source).tokens b position) ∧
      (err = .unclosedComment position →
        ∀ start, CommentStaysOpen source start ↔ start = position) ∧
      (err.isIncomplete = false → ∃ t ∈ (lex source).tokens, t.offset = position ∧
        (∀ early ∈ (readAll (F := F) (source.take position)).2, early.isIncomplete = true) ∧
        readAll (source.take t.stop) = (es, some err)) := by
  have hFault := TokenStream.faultWithin_of_all hRead
  obtain ⟨position, hPosition, hMem⟩ := TokenStream.exists_position_of_faultWithin hFault
  rw [List.map_nil, or_iff_right List.not_mem_nil] at hMem
  refine ⟨position, hPosition, ((standsWithin_lex source).bounds position hMem).2, ?_, ?_, ?_⟩
  · rintro b rfl
    have hOpen := TokenStream.staysOpen_of_faultWithin hFault
    exact ⟨getElem?_of_staysOpen hOpen, hOpen⟩
  · rintro rfl start
    obtain ⟨stack, -, hEnd⟩ := TokenStream.exists_openAfter?_of_faultWithin hFault rfl
    have hLex : (lex source).unclosedComment = some position := by
      unfold TokenStream.endOfInput at hEnd
      split at hEnd <;> simp_all
    rw [← unclosedComment_lex_iff_staysOpen, hLex, Option.some.injEq, eq_comm]
  · intro hHard
    obtain ⟨t, hToken, hOffset, hBefore, hThrough⟩ := exists_token_of_readAll hRead hHard
    obtain rfl : position = t.offset := Option.some.inj (hPosition.symm.trans hOffset)
    exact ⟨t, hToken, rfl, hBefore, hThrough⟩

theorem readAll_reports_position_of_each_kind :
    let list : Text := "1 (a [b (c) .".toList
    let comment : Text := "(a #|b|# #|c #|d|#".toList
    let token : Text := "(a . b c) )".toList
    readAll list = (([.int 1] : List Datum), some (.unclosedList .square 5)) ∧
      StaysOpen (lex list).tokens .square 5 ∧
      readAll comment = (([] : List Datum), some (.unclosedComment 9)) ∧
      CommentStaysOpen comment 9 ∧
      readAll token = (([] : List Datum), some (.excessTail 7)) ∧
      (∀ early ∈ (readAll (F := Empty) (token.take 7)).2, early.isIncomplete = true) ∧
      ∃ t ∈ (lex token).tokens, t.offset = 7 ∧
        readAll (token.take t.stop) = (([] : List Datum), some (.excessTail 7)) := by
  intro list comment token
  have hList : readAll list = (([.int 1] : List Datum), some (.unclosedList .square 5)) := by
    decide +kernel
  have hComment : readAll comment = (([] : List Datum), some (.unclosedComment 9)) := by
    decide +kernel
  have hToken : readAll token = (([] : List Datum), some (.excessTail 7)) := by decide +kernel
  obtain ⟨_, ⟨⟩, -, hOpen, -⟩ := readAll_reports_position hList
  obtain ⟨_, ⟨⟩, -, -, hStart, -⟩ := readAll_reports_position hComment
  obtain ⟨_, ⟨⟩, -, -, -, hFirst⟩ := readAll_reports_position hToken
  obtain ⟨t, hMem, hOffset, hBefore, hThrough⟩ := hFirst rfl
  exact ⟨hList, (hOpen _ rfl).2, hComment, (hStart rfl 9).2 rfl, hToken, hBefore, t, hMem, hOffset,
    hThrough⟩

end Lisp
