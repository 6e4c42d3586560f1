import Lisp.Proofs.Lexer.Piece

/-! Places between the pieces of a text. Main statements: in a text without an open comment
these are the places that are inside no atom and inside no comment, and the tokens before such
a place do not depend on what is put in there. -/

namespace Lisp

/-- The text before this place is a sequence of whole pieces, where `after` follows it. -/
inductive IsCut : Text → Text → Prop where
  | start (after : Text) : IsCut [] after
  | piece {piece before after : Text} {kind : Option TokenKind}
      (hPiece : IsPiece (before ++ after) piece kind) (hBefore : IsCut before after) :
      IsCut (piece ++ before) after

/-- The text begins with a comment, and the place after so many characters is inside it. A line
comment reaches through its newline, or to the end of the text if it has none. -/
inductive BeginsInComment : Text → Nat → Prop where
  | line {comment rest : Text} {count : Nat} (hLine : '\n' ∉ comment) (hEnds : EndsLine rest)
      (hStart : 0 < count) (hStop : count ≤ 1 + comment.length) :
      BeginsInComment (';' :: comment ++ rest) count
  | block {comment rest : Text} {count : Nat} (hCloses : ClosesComments 1 comment)
      (hStart : 0 < count) (hStop : count < 2 + comment.length) :
      BeginsInComment ('#' :: '|' :: comment ++ rest) count

/-- The position is inside a comment of the text. -/
def InsideComment (s : Text) (position : Nat) : Prop :=
  ∃ before after count, s = before ++ after ∧ IsCut before after ∧ BeginsInComment after count ∧
    position = before.length + count

/-- The position is strictly inside an atom of the text. -/
def InsideAtom (s : Text) (position : Nat) : Prop :=
  ∃ atom offset, ⟨.atom atom, offset⟩ ∈ (lex s).tokens ∧ offset < position ∧
    position < offset + atom.length

theorem EndsAtom.change_after {before after after' : Text} (hRest : EndsAtom (before ++ after))
    (hEnds : EndsAtom after → EndsAtom after') : EndsAtom (before ++ after') := by
  cases before with
  | nil => exact hEnds hRest
  | cons c before => exact hRest

/-- What follows a piece only matters to the end of an atom. -/
theorem IsPiece.change_rest {rest rest' piece : Text} {kind : Option TokenKind}
    (hPiece : IsPiece rest piece kind) (hEnds : EndsAtom rest → EndsAtom rest') :
    IsPiece rest' piece kind := by
  cases hPiece with
  | blank hBlank => exact .blank hBlank
  | lineComment hLine => exact .lineComment hLine
  | blockComment hCloses => exact .blockComment hCloses
  | opening b => exact .opening b
  | closing b => exact .closing b
  | atom hAtom hRest => exact .atom hAtom (hEnds hRest)

namespace IsCut

variable {before before' after after' piece rest : Text} {kind : Option TokenKind}

/-- What follows a place only matters to the end of an atom. -/
theorem change_after (hCut : IsCut before after) (hEnds : EndsAtom after → EndsAtom after') :
    IsCut before after' := by
  induction hCut with
  | start after => exact .start after'
  | piece hPiece hBefore ih =>
      exact .piece (hPiece.change_rest fun hRest => hRest.change_after hEnds) (ih hEnds)

/-- The tokens before a place do not depend on what follows it, but for the end of an atom. -/
theorem exists_tokens (hCut : IsCut before after) (offset : Nat) :
    ∃ tokens : List Token, (∀ t ∈ tokens, t.offset < offset + before.length) ∧
      ∀ after', (EndsAtom after → EndsAtom after') →
        Lexer.lexFrom offset (before ++ after') =
          TokenStream.append ⟨tokens, none⟩ (Lexer.lexFrom (offset + before.length) after') := by
  induction hCut generalizing offset with
  | start after => exact ⟨[], by simp, fun after' hEnds => rfl⟩
  | @piece piece before after kind hPiece hBefore ih =>
      obtain ⟨tokens, hBounds, hLex⟩ := ih (offset + piece.length)
      rw [Nat.add_assoc, ← List.length_append] at hBounds hLex
      refine ⟨kind.toList.map (⟨·, offset⟩) ++ tokens, ?_, fun after' hEnds => ?_⟩
      · intro t hMem
        rcases List.mem_append.1 hMem with hFirst | hLater
        · obtain ⟨k, -, rfl⟩ := List.mem_map.1 hFirst
          have hLength := hPiece.length_pos
          simp only [List.length_append]
          omega
        · exact hBounds t hLater
      · have hPiece' := hPiece.change_rest fun hRest => hRest.change_after hEnds
        rw [List.append_assoc, hPiece'.lexFrom_append, hLex after' hEnds]
        simp only [TokenStream.append, List.append_assoc]

/-- No place between two pieces is inside a piece. -/
theorem le_or_le_of_piece (hCut : IsCut before after) (hCut' : IsCut before' (piece ++ rest))
    (hPiece : IsPiece rest piece kind)
    (hText : before ++ after = before' ++ (piece ++ rest)) :
    before.length ≤ before'.length ∨ before'.length + piece.length ≤ before.length := by
  -- Both places are followed from the start of the text, where the same pieces come first.
  generalize hAfter : piece ++ rest = after' at hCut' hText
  induction hCut' generalizing before with
  | start after' =>
      cases hCut with
      | start => exact .inl (Nat.le_refl _)
      | @piece first before after kind hFirst hBefore =>
          rw [← hAfter, List.nil_append, List.append_assoc] at hText
          obtain ⟨rfl, -⟩ := hFirst.unique hPiece hText
          exact .inr (by simp)
  | @piece first' before' after' kind' hFirst' hBefore' ih =>
      cases hCut with
      | start => exact .inl (by simp)
      | @piece first before after kind hFirst hBefore =>
          rw [List.append_assoc, List.append_assoc] at hText
          obtain ⟨rfl, hRest⟩ := hFirst.unique hFirst' hText
          have hPlace := ih hBefore hAfter hRest
          simp only [List.length_append]
          omega

end IsCut

theorem InsideAtom.piece_append {rest piece : Text} {kind : Option TokenKind} {position : Nat}
    (hPiece : IsPiece rest piece kind) (hInside : InsideAtom rest position) :
    InsideAtom (piece ++ rest) (position + piece.length) := by
  obtain ⟨atom, offset, hMem, hStart, hStop⟩ := hInside
  have hMoved := hPiece.mem_tokens_iff.2 (.inr ⟨_, hMem, rfl⟩)
  exact ⟨atom, offset + piece.length, hMoved, by omega, by omega⟩

theorem InsideComment.piece_append {rest piece : Text} {kind : Option TokenKind} {position : Nat}
    (hPiece : IsPiece rest piece kind) (hInside : InsideComment rest position) :
    InsideComment (piece ++ rest) (position + piece.length) := by
  obtain ⟨before, after, count, rfl, hCut, hBegins, rfl⟩ := hInside
  refine ⟨piece ++ before, after, count, by simp, .piece hPiece hCut, hBegins, ?_⟩
  rw [List.length_append]
  omega

theorem BeginsInComment.insideComment {s : Text} {count : Nat} (hBegins : BeginsInComment s count) :
    InsideComment s count :=
  ⟨[], s, count, rfl, .start s, hBegins, (Nat.zero_add count).symm⟩

/-- Only atoms and comments are long enough for a place inside. -/
theorem IsPiece.insideAtom_or_insideComment {rest piece : Text} {kind : Option TokenKind}
    {position : Nat} (hPiece : IsPiece rest piece kind) (hStart : 0 < position)
    (hStop : position < piece.length) :
    InsideAtom (piece ++ rest) position ∨ InsideComment (piece ++ rest) position := by
  cases hPiece with
  | blank hBlank | opening b | closing b =>
      rw [List.length_singleton] at hStop
      omega
  | @lineComment comment hLine =>
      have hEnds : EndsLine ('\n' :: rest) := by simp [EndsLine]
      have hCount : position ≤ 1 + comment.length := by
        simp only [List.length_append, List.length_cons, List.length_nil] at hStop
        omega
      have hBegins := BeginsInComment.line hLine hEnds hStart hCount
      rw [List.append_assoc, List.singleton_append]
      exact .inr hBegins.insideComment
  | @blockComment comment hCloses =>
      have hCount : position < 2 + comment.length := by
        simp only [List.length_cons] at hStop
        omega
      exact .inr (BeginsInComment.block hCloses hStart hCount).insideComment
  | atom hAtom hEnds =>
      have hMem := (IsPiece.atom hAtom hEnds).mem_tokens_zero_iff.2 rfl
      exact .inl ⟨piece, 0, hMem, hStart, by omega⟩

/-- A place that is inside no atom and inside no comment is between two pieces. -/
theorem exists_isCut {s : Text} {position : Nat} (hClosed : (lex s).unclosedComment = none)
    (hBound : position ≤ s.length) (hAtom : ¬ InsideAtom s position)
    (hComment : ¬ InsideComment s position) :
    ∃ before after, s = before ++ after ∧ before.length = position ∧ IsCut before after := by
  induction s using piece_induction generalizing position with
  | nil =>
      obtain rfl : position = 0 := Nat.le_zero.1 hBound
      exact ⟨[], [], rfl, rfl, .start []⟩
  | lastLine comment hLine =>
      rcases Nat.eq_zero_or_pos position with rfl | hStart
      · exact ⟨[], _, rfl, rfl, .start _⟩
      have hEnds : EndsLine [] := by simp [EndsLine]
      have hCount : position ≤ 1 + comment.length := by
        rw [List.length_cons] at hBound
        omega
      have hBegins := BeginsInComment.line hLine hEnds hStart hCount
      rw [List.append_nil] at hBegins
      exact absurd hBegins.insideComment hComment
  | openComment body hOpen =>
      rw [lex, Lexer.lexFrom_openComment hOpen] at hClosed
      cases hClosed
  | piece piece rest kind hPiece ih =>
      rcases Nat.eq_zero_or_pos position with rfl | hStart
      · exact ⟨[], _, rfl, rfl, .start _⟩
      rcases Nat.lt_or_ge position piece.length with hInside | hBeyond
      · rcases hPiece.insideAtom_or_insideComment hStart hInside with hIn | hIn
        · exact absurd hIn hAtom
        · exact absurd hIn hComment
      · obtain ⟨later, rfl⟩ := Nat.exists_eq_add_of_le' hBeyond
        rw [List.length_append] at hBound
        obtain ⟨before, after, rfl, rfl, hCut⟩ := ih (hPiece.unclosedComment_eq_none_iff.1 hClosed)
          (by omega) (fun hIn => hAtom (hIn.piece_append hPiece))
          (fun hIn => hComment (hIn.piece_append hPiece))
        exact ⟨piece ++ before, after, by simp, by simp [Nat.add_comm], .piece hPiece hCut⟩

/-- A token begins at a place between two pieces. -/
theorem exists_isCut_of_mem_tokens {s : Text} {t : Token} (hMem : t ∈ (lex s).tokens) :
    ∃ before rest, s = before ++ (t.text ++ rest) ∧ t.offset = before.length ∧
      IsCut before (t.text ++ rest) ∧ IsPiece rest t.text (some t.kind) := by
  induction s using piece_induction generalizing t with
  | nil =>
      rw [lex, Lexer.lexFrom_nil] at hMem
      cases hMem
  | lastLine comment hLine =>
      rw [lex, Lexer.lexFrom_lastLine hLine] at hMem
      cases hMem
  | openComment body hOpen =>
      rw [lex, Lexer.lexFrom_openComment hOpen] at hMem
      cases hMem
  | piece piece rest kind hPiece ih =>
      rcases hPiece.mem_tokens_iff.1 hMem with ⟨rfl, hOffset⟩ | ⟨u, hLater, rfl⟩
      · obtain rfl := hPiece.text_eq t.offset
        exact ⟨[], rest, rfl, hOffset, .start _, hPiece⟩
      · obtain ⟨before, after, rfl, hOffset, hCut, hToken⟩ := ih hLater
        refine ⟨piece ++ before, after, (List.append_assoc ..).symm, ?_, .piece hPiece hCut, hToken⟩
        rw [Token.shift, hOffset, List.length_append, Nat.add_comm]

namespace IsCut

variable {before after : Text}

theorem not_insideAtom (hCut : IsCut before after) :
    ¬ InsideAtom (before ++ after) before.length := by
  rintro ⟨atom, offset, hMem, hStart, hStop⟩
  obtain ⟨before', rest, hText, hOffset, hCut', hPiece⟩ := exists_isCut_of_mem_tokens hMem
  have hPlace := hCut.le_or_le_of_piece hCut' hPiece hText
  simp only [Token.text] at hOffset hPlace
  omega

theorem not_insideComment (hCut : IsCut before after) :
    ¬ InsideComment (before ++ after) before.length := by
  rintro ⟨before', after', count, hText, hCut', hBegins, hPosition⟩
  cases hBegins with
  | @block comment rest _ hCloses hStart hStop =>
      have hPlace := hCut.le_or_le_of_piece hCut' (.blockComment hCloses) hText
      simp only [List.length_cons] at hPlace
      omega
  | @line comment rest _ hLine hEnds hStart hStop =>
      -- A newline at the end of the text makes the comment a piece.
      have hEnded : ∀ {s : Text}, EndsAtom s → EndsAtom (s ++ ['\n']) :=
        fun hRest => hRest.append (by decide) []
      obtain ⟨more, hMore⟩ : ∃ more, rest ++ ['\n'] = '\n' :: more := by
        cases rest with
        | nil => exact ⟨[], rfl⟩
        | cons c rest =>
            obtain rfl : c = '\n' := hEnds c rfl
            exact ⟨_, rfl⟩
      have hAfter : ';' :: comment ++ rest ++ ['\n'] = ';' :: comment ++ ['\n'] ++ more := by
        rw [List.append_assoc, hMore, List.append_assoc, List.singleton_append]
      have hPlace := (hCut.change_after hEnded).le_or_le_of_piece
        (hAfter ▸ hCut'.change_after hEnded) (.lineComment hLine)
        (by rw [← hAfter, ← List.append_assoc, hText, List.append_assoc])
      simp only [List.length_append, List.length_cons, List.length_nil] at hPlace
      omega

end IsCut

/-- In a text without an open comment, the places between two pieces are those that are inside
no atom and inside no comment. -/
theorem isCut_iff {before after : Text} (hClosed : (lex (before ++ after)).unclosedComment = none) :
    IsCut before after ↔
      ¬ InsideAtom (before ++ after) before.length ∧
        ¬ InsideComment (before ++ after) before.length := by
  constructor
  · intro hCut
    exact ⟨hCut.not_insideAtom, hCut.not_insideComment⟩
  · rintro ⟨hAtom, hComment⟩
    obtain ⟨before', after', hText, hLength, hCut⟩ :=
      exists_isCut hClosed (by simp) hAtom hComment
    obtain ⟨rfl, rfl⟩ := List.append_inj hText hLength.symm
    exact hCut

end Lisp
