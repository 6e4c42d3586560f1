import Lisp.Proofs.Lexer.LineBreak

/-! Texts piece by piece. A piece is a blank, a comment or a token, each of them whole, and a
text without an open comment at its end is a sequence of pieces. Main statements: an induction
over the pieces of a text, and that a text begins with one piece only. -/

namespace Lisp

/-- A block comment that goes on with this text after its opening has no end. -/
def NeverCloses (body : Text) : Prop := ∀ comment, ClosesComments 1 comment → ¬ comment <+: body

namespace Lexer

/-- A line comment needs no newline at the end of a text. -/
theorem lexFrom_lastLine {comment : Text} (hLine : '\n' ∉ comment) (offset : Nat) :
    lexFrom offset (';' :: comment) = ⟨[], none⟩ := by
  have hEnds : EndsLine [] := by simp [EndsLine]
  have hComment := lexFrom_lineComment hLine hEnds offset
  rwa [List.append_nil, lexFrom_nil] at hComment

theorem lexFrom_openComment {body : Text} (hOpen : NeverCloses body) (offset : Nat) :
    lexFrom offset ('#' :: '|' :: body) = ⟨[], some offset⟩ :=
  lexFrom_of_blockEnd?_eq_none (blockEnd?_eq_none_iff.2 hOpen)

end Lexer

/-- The text is a piece where `rest` follows it: a blank, a comment, or the text of a token of
this kind. A line comment takes its newline along. -/
inductive IsPiece (rest : Text) : Text → Option TokenKind → Prop where
  | blank {c : Char} (hBlank : Text.isBlank c = true) : IsPiece rest [c] none
  | lineComment {comment : Text} (hLine : '\n' ∉ comment) :
      IsPiece rest (';' :: comment ++ ['\n']) none
  | blockComment {comment : Text} (hCloses : ClosesComments 1 comment) :
      IsPiece rest ('#' :: '|' :: comment) none
  | opening (b : Bracket) : IsPiece rest [b.opening] (some (.opener b))
  | closing (b : Bracket) : IsPiece rest [b.closing] (some (.closer b))
  | atom {s : Text} (hAtom : IsAtom s) (hEnds : EndsAtom rest) : IsPiece rest s (some (.atom s))

/-- A line ends at the first newline. -/
theorem eq_of_append_newline {line line' rest rest' : Text} (hLine : '\n' ∉ line)
    (hLine' : '\n' ∉ line') (hText : line ++ '\n' :: rest = line' ++ '\n' :: rest') :
    line = line' := by
  have hCut : ∀ s : Text, '\n' ∉ s → ∀ t, (s ++ '\n' :: t).takeWhile (· != '\n') = s := by
    intro s hNone t
    exact takeWhile_append_of_head?
      (fun c hMem => by simpa using ne_of_mem_of_not_mem hMem hNone) (by simp)
  rw [← hCut line hLine rest, hText, hCut line' hLine' rest']

/-- A block comment ends where its nesting first falls to zero. -/
theorem ClosesComments.eq_of_append {depth : Nat} {comment comment' rest rest' : Text}
    (hCloses : ClosesComments depth comment) (hCloses' : ClosesComments depth comment')
    (hText : comment ++ rest = comment' ++ rest') : comment = comment' := by
  have hEnd := Lexer.blockEnd?_of_closesComments hCloses 0 rest
  rw [hText, Lexer.blockEnd?_of_closesComments hCloses' 0 rest', Option.some.injEq,
    Prod.mk.injEq] at hEnd
  rw [hEnd.2] at hText
  exact List.append_cancel_right hText

namespace IsPiece

variable {rest rest' piece piece' : Text} {kind kind' : Option TokenKind} {k : TokenKind}

theorem length_pos (hPiece : IsPiece rest piece kind) : 0 < piece.length := by
  cases hPiece with
  | atom hAtom hEnds => exact List.length_pos_iff.2 hAtom.nonempty
  | _ => simp

/-- A piece that is no token is layout. -/
theorem layout (hPiece : IsPiece rest piece none) : Layout piece := by
  cases hPiece with
  | blank hBlank => exact .blank hBlank .nil
  | lineComment hLine => exact .lineComment hLine .nil
  | @blockComment comment hCloses =>
      have hLayout := Layout.blockComment hCloses .nil
      rwa [List.append_nil] at hLayout

/-- A piece that is a token is the text of that token. -/
theorem text_eq (hPiece : IsPiece rest piece (some k)) (offset : Nat) :
    Token.text ⟨k, offset⟩ = piece := by
  cases hPiece <;> rfl

theorem isAtom {s : Text} (hPiece : IsPiece rest piece (some (.atom s))) :
    IsAtom s ∧ EndsAtom rest := by
  cases hPiece with
  | atom hAtom hEnds => exact ⟨hAtom, hEnds⟩

theorem lexFrom_layout (hPiece : IsPiece rest piece none) (offset : Nat) :
    Lexer.lexFrom offset (piece ++ rest) = Lexer.lexFrom (offset + piece.length) rest :=
  Lexer.lexFrom_append_of_layout hPiece.layout offset rest

theorem lexFrom_token (hPiece : IsPiece rest piece (some k)) (offset : Nat) :
    Lexer.lexFrom offset (piece ++ rest) =
      (Lexer.lexFrom (offset + piece.length) rest).cons ⟨k, offset⟩ := by
  cases hPiece with
  | opening b => exact Lexer.lexFrom_opening b offset rest
  | closing b => exact Lexer.lexFrom_closing b offset rest
  | atom hAtom hEnds => exact Lexer.lexFrom_atom hAtom hEnds offset

/-- The tokens of a text are its first piece, if that is a token, and those of the rest. -/
theorem lexFrom_append (hPiece : IsPiece rest piece kind) (offset : Nat) :
    Lexer.lexFrom offset (piece ++ rest) =
      TokenStream.append ⟨kind.toList.map (⟨·, offset⟩), none⟩
        (Lexer.lexFrom (offset + piece.length) rest) := by
  cases kind with
  | none => exact hPiece.lexFrom_layout offset
  | some k => exact hPiece.lexFrom_token offset

theorem mem_tokens_iff {t : Token} (hPiece : IsPiece rest piece kind) :
    t ∈ (lex (piece ++ rest)).tokens ↔
      (kind = some t.kind ∧ t.offset = 0) ∨
        ∃ u ∈ (lex rest).tokens, u.shift piece.length = t := by
  obtain ⟨k, offset⟩ := t
  rw [lex, hPiece.lexFrom_append, lexFrom_eq_shift, Nat.zero_add]
  refine List.mem_append.trans (or_congr ?_ List.mem_map)
  cases kind <;> simp [eq_comm]

/-- The kind of the first piece shows in the tokens of the text. -/
theorem mem_tokens_zero_iff (hPiece : IsPiece rest piece kind) :
    ⟨k, 0⟩ ∈ (lex (piece ++ rest)).tokens ↔ kind = some k := by
  have hLength := hPiece.length_pos
  rw [hPiece.mem_tokens_iff, or_iff_left]
  · simp
  · rintro ⟨u, -, hMoved⟩
    have hZero := congrArg Token.offset hMoved
    simp only [Token.shift] at hZero
    omega

theorem unclosedComment_eq_none_iff (hPiece : IsPiece rest piece kind) :
    (lex (piece ++ rest)).unclosedComment = none ↔ (lex rest).unclosedComment = none := by
  rw [lex, hPiece.lexFrom_append, lexFrom_eq_shift, Nat.zero_add]
  exact Option.map_eq_none_iff

/-- Two pieces of layout at the beginning of a text are one. -/
theorem eq_of_layout (hPiece : IsPiece rest piece none) (hPiece' : IsPiece rest' piece' none)
    (hText : piece ++ rest = piece' ++ rest') : piece = piece' := by
  cases hPiece with
  | blank hBlank =>
      cases hPiece' with
      | blank hBlank' => simp_all
      | lineComment | blockComment =>
          rw [(List.cons.inj hText).1] at hBlank
          cases hBlank
  | lineComment hLine =>
      cases hPiece' with
      | blank hBlank' =>
          rw [← (List.cons.inj hText).1] at hBlank'
          cases hBlank'
      | lineComment hLine' =>
          simp only [List.cons_append, List.append_assoc, List.cons.injEq, true_and,
            List.nil_append] at hText
          rw [eq_of_append_newline hLine hLine' hText]
      | blockComment => simp at hText
  | blockComment hCloses =>
      cases hPiece' with
      | blank hBlank' =>
          rw [← (List.cons.inj hText).1] at hBlank'
          cases hBlank'
      | lineComment => simp at hText
      | blockComment hCloses' =>
          simp only [List.cons_append, List.cons.injEq, true_and] at hText
          rw [hCloses.eq_of_append hCloses' hText]

/-- A text begins with one piece only. -/
theorem unique (hPiece : IsPiece rest piece kind) (hPiece' : IsPiece rest' piece' kind')
    (hText : piece ++ rest = piece' ++ rest') : piece = piece' ∧ rest = rest' := by
  have hKind : kind = kind' := by
    ext k
    rw [← hPiece.mem_tokens_zero_iff, ← hPiece'.mem_tokens_zero_iff, hText]
  have hSame : piece = piece' := by
    subst hKind
    cases kind with
    | none => exact hPiece.eq_of_layout hPiece' hText
    | some k => rw [← hPiece.text_eq 0, hPiece'.text_eq 0]
  subst hSame
  exact ⟨rfl, List.append_cancel_left hText⟩

end IsPiece

/-- Induction over the pieces of a text. What is left at the end is nothing, or a line comment
without its newline, or a block comment without its end. -/
@[elab_as_elim]
theorem piece_induction {motive : Text → Prop} (nil : motive [])
    (lastLine : ∀ comment, '\n' ∉ comment → motive (';' :: comment))
    (openComment : ∀ body, NeverCloses body → motive ('#' :: '|' :: body))
    (piece : ∀ piece rest kind, IsPiece rest piece kind → motive rest → motive (piece ++ rest))
    (s : Text) : motive s := by
  induction hLength : s.length using Nat.strong_induction_on generalizing s with
  | _ length ih =>
      have hStep : ∀ {first rest kind}, IsPiece rest first kind → first ++ rest = s → motive s := by
        rintro first rest kind hPiece rfl
        refine piece first rest kind hPiece (ih rest.length ?_ rest rfl)
        have hPos := hPiece.length_pos
        rw [← hLength, List.length_append]
        omega
      obtain ⟨stream, hLexes⟩ : ∃ stream, Lexes 0 s stream := ⟨_, lexes_lexFrom 0 s⟩
      cases hLexes with
      | nil => exact nil
      | blank hBlank more => exact hStep (.blank hBlank) rfl
      | @lineComment _ comment rest _ hLine hEnds more =>
          cases rest with
          | nil =>
              rw [List.append_nil]
              exact lastLine comment hLine
          | cons c rest =>
              obtain rfl : c = '\n' := hEnds c rfl
              have hPiece : IsPiece rest (';' :: comment ++ ['\n']) none := .lineComment hLine
              refine hStep hPiece ?_
              rw [List.append_assoc, List.singleton_append]
      | blockComment hCloses more => exact hStep (.blockComment hCloses) rfl
      | unclosedComment hOpen => exact openComment _ hOpen
      | opening b more => exact hStep (.opening b) rfl
      | closing b more => exact hStep (.closing b) rfl
      | atom hAtom hEnds more => exact hStep (.atom hAtom hEnds) rfl

end Lisp
