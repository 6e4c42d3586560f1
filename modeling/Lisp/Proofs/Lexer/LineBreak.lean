import Lisp.Proofs.Lexer.Relation

/-! Lexing on from a line break. No atom and no line comment goes past it, so what stands
before a line break has its tokens whatever follows. Only a block comment that is still open
reaches into the next line. -/

namespace Lisp

/-- The same token, where the text stands `count` characters further on. -/
def Token.shift (count : Nat) (t : Token) : Token := { t with offset := t.offset + count }

namespace TokenStream

/-- The same tokens, where the text stands `count` characters further on. -/
def shift (count : Nat) (s : TokenStream) : TokenStream :=
  ⟨s.tokens.map (Token.shift count), s.unclosedComment.map (· + count)⟩

/-- The tokens of one text and then those of another. Whether the first text ends inside a
comment does not show in the result. -/
def append (s later : TokenStream) : TokenStream :=
  ⟨s.tokens ++ later.tokens, later.unclosedComment⟩

@[simp] theorem shift_cons (count : Nat) (t : Token) (s : TokenStream) :
    (s.cons t).shift count = (s.shift count).cons (t.shift count) := rfl

@[simp] theorem append_cons (t : Token) (s later : TokenStream) :
    (s.cons t).append later = (s.append later).cons t := rfl

@[simp] theorem nil_append (unclosedComment : Option Nat) (later : TokenStream) :
    (⟨[], unclosedComment⟩ : TokenStream).append later = later := rfl

end TokenStream

theorem EndsAtom.append {s : Text} (hEnds : EndsAtom s) {c : Char}
    (hEnd : isAtomChar c = false) (t : Text) : EndsAtom (s ++ c :: t) := by
  cases s with
  | nil => simpa [EndsAtom] using hEnd
  | cons d s => simpa [EndsAtom] using hEnds

theorem EndsLine.append {s : Text} (hEnds : EndsLine s) (t : Text) :
    EndsLine (s ++ '\n' :: t) := by
  cases s with
  | nil => simp [EndsLine]
  | cons d s => simpa [EndsLine] using hEnds

/-- Comments of any depth can be closed. -/
theorem closesComments_flatten_replicate (depth : Nat) :
    ClosesComments depth (List.replicate depth ['|', '#']).flatten := by
  induction depth with
  | zero => exact .done
  | succ depth ih => exact .closing ih

/-- A comment that is open at a line break can be closed after it. -/
theorem exists_closesComments_of_not_isPrefix {depth : Nat} {s : Text}
    (hOpen : ∀ comment, ClosesComments depth comment → ¬ comment <+: s) :
    ∃ closers, ClosesComments depth (s ++ '\n' :: closers) := by
  have hEnd : Lexer.blockEnd? depth 0 s = none := Lexer.blockEnd?_eq_none_iff.2 hOpen
  clear hOpen
  generalize 0 = offset at hEnd
  fun_induction Lexer.blockEnd? depth offset s with
  | case1 => cases hEnd
  | case2 offset depth =>
      exact ⟨_, .other (by simp) (by simp) (closesComments_flatten_replicate (depth + 1))⟩
  | case3 depth offset s ih =>
      obtain ⟨closers, hCloses⟩ := ih hEnd
      exact ⟨closers, .opening hCloses⟩
  | case4 depth offset s ih =>
      obtain ⟨closers, hCloses⟩ := ih hEnd
      exact ⟨closers, .closing hCloses⟩
  | case5 depth offset c s hOpening hClosing ih =>
      obtain ⟨closers, hCloses⟩ := ih hEnd
      refine ⟨closers, ?_⟩
      rw [List.cons_append]
      -- The line break separates the last character from what is added.
      refine .other ?_ ?_ hCloses
      · cases s with
        | nil => simp
        | cons d s =>
            have hNot := hOpening s
            grind
      · cases s with
        | nil => simp
        | cons d s =>
            have hNot := hClosing s
            grind

namespace Lexes

variable {offset : Nat} {s : Text} {stream : TokenStream}

/-- The lexer treats all offsets alike. -/
theorem shift (hLexes : Lexes offset s stream) (count : Nat) :
    Lexes (offset + count) s (stream.shift count) := by
  induction hLexes with
  | nil offset => exact .nil _
  | blank hBlank more ih =>
      exact .blank hBlank (by rwa [Nat.add_right_comm])
  | @lineComment offset comment rest stream hLine hEnds more ih =>
      refine .lineComment hLine hEnds ?_
      rwa [show offset + count + 1 + comment.length = offset + 1 + comment.length + count by omega]
  | @blockComment offset comment rest stream hCloses more ih =>
      refine .blockComment hCloses ?_
      rwa [show offset + count + 2 + comment.length = offset + 2 + comment.length + count by omega]
  | unclosedComment hOpen => exact .unclosedComment hOpen
  | opening b more ih =>
      exact .opening b (by rwa [Nat.add_right_comm])
  | closing b more ih =>
      exact .closing b (by rwa [Nat.add_right_comm])
  | atom hAtom hEnds more ih =>
      exact .atom hAtom hEnds (by rwa [Nat.add_right_comm])

/-- What stands before a line break has its tokens. Only an open block comment, where there is
one, is lexed again with what follows. -/
theorem exists_append_newline (hLexes : Lexes offset s stream) :
    ∃ start opened, start + opened.length = offset + s.length ∧
      (stream.unclosedComment = none ∧ opened = [] ∨
        stream.unclosedComment = some start ∧ ∃ body, opened = '#' :: '|' :: body ∧
          ∀ comment, ClosesComments 1 comment → ¬ comment <+: body) ∧
      ∀ t later, Lexes start (opened ++ '\n' :: t) later →
        Lexes offset (s ++ '\n' :: t) (stream.append later) := by
  induction hLexes with
  | nil offset => exact ⟨offset, [], rfl, .inl ⟨rfl, rfl⟩, fun t later hLater => hLater⟩
  | @blank offset c s stream hBlank more ih =>
      obtain ⟨start, opened, hLength, hOpened, hMore⟩ := ih
      refine ⟨start, opened, by simp; omega, hOpened, fun t later hLater => ?_⟩
      exact .blank hBlank (hMore t later hLater)
  | @lineComment offset comment rest stream hLine hEnds more ih =>
      obtain ⟨start, opened, hLength, hOpened, hMore⟩ := ih
      refine ⟨start, opened, by simp; omega, hOpened, fun t later hLater => ?_⟩
      rw [List.append_assoc]
      exact .lineComment hLine (hEnds.append t) (hMore t later hLater)
  | @blockComment offset comment rest stream hCloses more ih =>
      obtain ⟨start, opened, hLength, hOpened, hMore⟩ := ih
      refine ⟨start, opened, by simp; omega, hOpened, fun t later hLater => ?_⟩
      rw [List.append_assoc]
      exact .blockComment hCloses (hMore t later hLater)
  | @unclosedComment offset s hOpen =>
      exact ⟨offset, '#' :: '|' :: s, rfl, .inr ⟨rfl, s, rfl, hOpen⟩,
        fun t later hLater => hLater⟩
  | @opening offset b s stream more ih =>
      obtain ⟨start, opened, hLength, hOpened, hMore⟩ := ih
      refine ⟨start, opened, by simp; omega, hOpened, fun t later hLater => ?_⟩
      exact .opening b (hMore t later hLater)
  | @closing offset b s stream more ih =>
      obtain ⟨start, opened, hLength, hOpened, hMore⟩ := ih
      refine ⟨start, opened, by simp; omega, hOpened, fun t later hLater => ?_⟩
      exact .closing b (hMore t later hLater)
  | @atom offset s rest stream hAtom hEnds more ih =>
      obtain ⟨start, opened, hLength, hOpened, hMore⟩ := ih
      refine ⟨start, opened, by simp; omega, hOpened, fun t later hLater => ?_⟩
      rw [List.append_assoc]
      exact .atom hAtom (hEnds.append (by decide) t) (hMore t later hLater)

/-- What stands before a line break has its tokens, and what follows is lexed by itself unless
a block comment is open. -/
theorem append_newline (hLexes : Lexes offset s stream) (t : Text) :
    ∃ later, Lexes offset (s ++ '\n' :: t) (stream.append later) ∧
      (stream.unclosedComment = none →
        later = Lexer.lexFrom (offset + s.length + 1) t) := by
  obtain ⟨start, opened, hLength, hOpened, hMore⟩ := hLexes.exists_append_newline
  refine ⟨_, hMore t _ (lexes_lexFrom _ _), fun hClosed => ?_⟩
  rcases hOpened with ⟨-, rfl⟩ | ⟨hStart, -⟩
  · rw [List.nil_append, Lexer.lexFrom_of_isBlank rfl, ← hLength]
    rfl
  · rw [hClosed] at hStart
    cases hStart

/-- There is a text that ends whatever block comment is open at a line break, and what follows
that text is lexed by itself. -/
theorem exists_append_newline_closers (hLexes : Lexes offset s stream) :
    ∃ closers next, ∀ t,
      Lexes offset (s ++ '\n' :: closers ++ t) (stream.append (Lexer.lexFrom next t)) := by
  obtain ⟨start, opened, -, hOpened, hMore⟩ := hLexes.exists_append_newline
  rcases hOpened with ⟨-, rfl⟩ | ⟨-, body, rfl, hOpen⟩
  · exact ⟨[], start + 1, fun t => by simpa using hMore t _ (.blank rfl (lexes_lexFrom _ t))⟩
  · obtain ⟨closers, hCloses⟩ := exists_closesComments_of_not_isPrefix hOpen
    refine ⟨closers, start + 2 + (body ++ '\n' :: closers).length, fun t => ?_⟩
    have hLater := Lexes.blockComment hCloses
      (lexes_lexFrom (start + 2 + (body ++ '\n' :: closers).length) t)
    simpa using hMore (closers ++ t) _ (by simpa using hLater)

/-- The atoms among the tokens of a text are whole atoms. -/
theorem isAtom_of_mem (hLexes : Lexes offset s stream) :
    ∀ t ∈ stream.tokens, ∀ text, t.kind = .atom text → IsAtom text := by
  induction hLexes with
  | nil | unclosedComment => simp
  | blank _ _ ih | lineComment _ _ _ ih | blockComment _ _ ih => exact ih
  | opening b more ih | closing b more ih =>
      intro t hMem text hKind
      rcases List.mem_cons.1 hMem with rfl | hMem
      · cases hKind
      · exact ih t hMem text hKind
  | atom hAtom hEnds more ih =>
      intro t hMem text hKind
      rcases List.mem_cons.1 hMem with rfl | hMem
      · cases hKind
        exact hAtom
      · exact ih t hMem text hKind

end Lexes

/-- The lexer only adds the offset at which a text begins. -/
theorem lexFrom_eq_shift (offset : Nat) (s : Text) :
    Lexer.lexFrom offset s = (lex s).shift offset := by
  have hMoved := ((lexes_lexFrom 0 s).shift offset).lexFrom_eq
  rwa [Nat.zero_add] at hMoved

end Lisp
