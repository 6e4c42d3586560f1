import Lisp.Layout
import Mathlib.Data.List.TakeWhile

/-! The tokens of a text as a relation, with one rule for each way in which a text can begin.
The lexer computes this relation, so an induction over its rules is an induction over the
lexer that needs no lengths and no cuts. -/

namespace Lisp

/-- The text of an atom. A lone dot is one too. -/
structure IsAtom (s : Text) : Prop where
  nonempty : s ≠ []
  chars : ∀ c ∈ s, isAtomChar c = true
  notComment : ¬ ['#', '|'] <+: s

/-- An atom before this text ends where the text begins. -/
def EndsAtom (s : Text) : Prop := ∀ c ∈ s.head?, isAtomChar c = false

/-- A line comment before this text ends where the text begins. -/
def EndsLine (s : Text) : Prop := ∀ c ∈ s.head?, c = '\n'

/-- The text begins at this offset and has these tokens. -/
inductive Lexes : Nat → Text → TokenStream → Prop where
  | nil (offset : Nat) : Lexes offset [] ⟨[], none⟩
  | blank {offset : Nat} {c : Char} {s : Text} {stream : TokenStream}
      (hBlank : Text.isBlank c = true) (more : Lexes (offset + 1) s stream) :
      Lexes offset (c :: s) stream
  | lineComment {offset : Nat} {comment rest : Text} {stream : TokenStream}
      (hLine : '\n' ∉ comment) (hEnds : EndsLine rest)
      (more : Lexes (offset + 1 + comment.length) rest stream) :
      Lexes offset (';' :: comment ++ rest) stream
  | blockComment {offset : Nat} {comment rest : Text} {stream : TokenStream}
      (hCloses : ClosesComments 1 comment)
      (more : Lexes (offset + 2 + comment.length) rest stream) :
      Lexes offset ('#' :: '|' :: comment ++ rest) stream
  | unclosedComment {offset : Nat} {s : Text}
      (hOpen : ∀ comment, ClosesComments 1 comment → ¬ comment <+: s) :
      Lexes offset ('#' :: '|' :: s) ⟨[], some offset⟩
  | opening {offset : Nat} (b : Bracket) {s : Text} {stream : TokenStream}
      (more : Lexes (offset + 1) s stream) :
      Lexes offset (b.opening :: s) (stream.cons ⟨.opener b, offset⟩)
  | closing {offset : Nat} (b : Bracket) {s : Text} {stream : TokenStream}
      (more : Lexes (offset + 1) s stream) :
      Lexes offset (b.closing :: s) (stream.cons ⟨.closer b, offset⟩)
  | atom {offset : Nat} {s rest : Text} {stream : TokenStream} (hAtom : IsAtom s)
      (hEnds : EndsAtom rest) (more : Lexes (offset + s.length) rest stream) :
      Lexes offset (s ++ rest) (stream.cons ⟨.atom s, offset⟩)

/-- What is taken from the front goes on exactly as long as its characters do. -/
theorem takeWhile_append_of_head? {p : Char → Bool} {s rest : Text}
    (hAll : ∀ c ∈ s, p c = true) (hEnds : ∀ c ∈ rest.head?, p c = false) :
    (s ++ rest).takeWhile p = s := by
  rw [List.takeWhile_append_of_pos hAll]
  cases rest with
  | nil => simp
  | cons c rest => simp [hEnds c rfl]

/-- What is left after taking from the front begins with no character of that kind. -/
theorem head?_drop_takeWhile (p : Char → Bool) (s : Text) :
    ∀ c ∈ (s.drop (s.takeWhile p).length).head?, p c = false := by
  induction s with
  | nil => simp
  | cons d s ih =>
      cases hFirst : p d with
      | true => simpa [hFirst] using ih
      | false => simp [hFirst]

theorem takeWhile_append_drop_length (p : Char → Bool) (s : Text) :
    s.takeWhile p ++ s.drop (s.takeWhile p).length = s :=
  List.prefix_iff_eq_append.1 (List.takeWhile_prefix p)

namespace Lexer

/-- A block comment has no end exactly if the text begins with none that is whole. -/
theorem blockEnd?_eq_none_iff {depth offset : Nat} {s : Text} :
    blockEnd? depth offset s = none ↔
      ∀ comment, ClosesComments depth comment → ¬ comment <+: s := by
  constructor
  · rintro hNone comment hCloses ⟨rest, rfl⟩
    rw [blockEnd?_of_closesComments hCloses] at hNone
    cases hNone
  · intro hOpen
    cases hEnd : blockEnd? depth offset s with
    | none => rfl
    | some found =>
        obtain ⟨comment, hCloses, hText, -⟩ := blockEnd?_eq_some_iff.1 hEnd
        exact absurd ⟨found.2, hText.symm⟩ (hOpen comment hCloses)

theorem lexFrom_lineComment {comment rest : Text} (hLine : '\n' ∉ comment)
    (hEnds : EndsLine rest) (offset : Nat) :
    lexFrom offset (';' :: comment ++ rest) = lexFrom (offset + 1 + comment.length) rest := by
  have hTake : (comment ++ rest).takeWhile (· != '\n') = comment := by
    apply takeWhile_append_of_head?
    · intro c hMem
      simpa using ne_of_mem_of_not_mem hMem hLine
    · intro c hMem
      simpa using hEnds c hMem
  rw [List.cons_append, lexFrom_semicolon, hTake, List.drop_left]

theorem lexFrom_atom {s rest : Text} (hAtom : IsAtom s) (hEnds : EndsAtom rest) (offset : Nat) :
    lexFrom offset (s ++ rest) = (lexFrom (offset + s.length) rest).cons ⟨.atom s, offset⟩ := by
  obtain ⟨c, s, rfl⟩ := List.exists_cons_of_ne_nil hAtom.nonempty
  have hTake : (s ++ rest).takeWhile isAtomChar = s :=
    takeWhile_append_of_head? (fun d hMem => hAtom.chars d (by simp [hMem])) hEnds
  have hComment : ¬ (c = '#' ∧ (s ++ rest).head? = some '|') := by
    rintro ⟨rfl, hBar⟩
    cases s with
    | nil =>
        have hBarEnds : isAtomChar '|' = false := hEnds '|' hBar
        contradiction
    | cons d s =>
        cases hBar
        exact hAtom.notComment ⟨s, rfl⟩
  rw [List.cons_append, lexFrom_of_isAtomChar (hAtom.chars c (by simp)) hComment, hTake,
    List.drop_left, List.length_cons]
  congr 2
  omega

end Lexer

/-- White space in front of a text moves its tokens. -/
theorem Lexes.blanks {space rest : Text} (hBlank : ∀ c ∈ space, Text.isBlank c = true)
    {offset : Nat} {stream : TokenStream} (more : Lexes (offset + space.length) rest stream) :
    Lexes offset (space ++ rest) stream := by
  induction space generalizing offset with
  | nil => exact more
  | cons c space ih =>
      rw [List.forall_mem_cons] at hBlank
      refine .blank hBlank.1 (ih hBlank.2 ?_)
      rwa [List.length_cons, Nat.add_comm space.length, ← Nat.add_assoc] at more

/-- A text has only the tokens that the lexer finds. -/
theorem Lexes.lexFrom_eq {offset : Nat} {s : Text} {stream : TokenStream}
    (hLexes : Lexes offset s stream) : Lexer.lexFrom offset s = stream := by
  induction hLexes with
  | nil offset => exact Lexer.lexFrom_nil offset
  | blank hBlank more ih => rw [Lexer.lexFrom_of_isBlank hBlank, ih]
  | lineComment hLine hEnds more ih => rw [Lexer.lexFrom_lineComment hLine hEnds, ih]
  | @blockComment offset comment rest stream hCloses more ih =>
      have hEnd := Lexer.blockEnd?_of_closesComments hCloses (offset + 2) rest
      rw [List.cons_append, List.cons_append, Lexer.lexFrom_of_blockEnd?_eq_some hEnd, ih]
  | unclosedComment hOpen =>
      exact Lexer.lexFrom_of_blockEnd?_eq_none (Lexer.blockEnd?_eq_none_iff.2 hOpen)
  | opening b more ih => rw [Lexer.lexFrom_opening, ih]
  | closing b more ih => rw [Lexer.lexFrom_closing, ih]
  | atom hAtom hEnds more ih => rw [Lexer.lexFrom_atom hAtom hEnds, ih]

theorem Lexes.semicolon {offset : Nat} {s : Text} {stream : TokenStream}
    (more : Lexes (offset + 1 + (s.takeWhile (· != '\n')).length)
      (s.drop (s.takeWhile (· != '\n')).length) stream) :
    Lexes offset (';' :: s) stream := by
  rw [← takeWhile_append_drop_length (· != '\n') s]
  refine .lineComment ?_ ?_ more
  · intro hMem
    simpa using List.mem_takeWhile_imp hMem
  · intro c hMem
    simpa using head?_drop_takeWhile (· != '\n') s c hMem

theorem Lexes.atomChar {offset : Nat} {c : Char} {s : Text} {stream : TokenStream}
    (hAtom : isAtomChar c = true) (hComment : ¬ (c = '#' ∧ s.head? = some '|'))
    (more : Lexes (offset + 1 + (s.takeWhile isAtomChar).length)
      (s.drop (s.takeWhile isAtomChar).length) stream) :
    Lexes offset (c :: s) (stream.cons ⟨.atom (c :: s.takeWhile isAtomChar), offset⟩) := by
  have hCut := takeWhile_append_drop_length isAtomChar s
  have hIsAtom : IsAtom (c :: s.takeWhile isAtomChar) := by
    refine ⟨by simp, ?_, ?_⟩
    · intro d hMem
      rcases List.mem_cons.1 hMem with rfl | hMem
      · exact hAtom
      · exact List.mem_takeWhile_imp hMem
    · rintro ⟨rest, hRest⟩
      obtain ⟨rfl, hTake⟩ := List.cons.inj hRest
      refine hComment ⟨rfl, ?_⟩
      rw [← hCut, ← hTake]
      rfl
  have hWhole := Lexes.atom hIsAtom (head?_drop_takeWhile isAtomChar s)
    (by rwa [List.length_cons, Nat.add_comm _ 1, ← Nat.add_assoc])
  rwa [List.cons_append, hCut] at hWhole

/-- The lexer finds the tokens of every text. -/
theorem lexes_lexFrom (offset : Nat) (s : Text) : Lexes offset s (Lexer.lexFrom offset s) := by
  fun_induction Lexer.lexFrom offset s with
  | case1 offset => exact .nil offset
  | case2 offset c s hBlank ih => exact .blank hBlank ih
  | case3 offset s hBlank comment ih => exact .semicolon ih
  | case4 offset c s hBlank hLine hStart hEnd =>
      obtain ⟨rest, rfl⟩ := List.head?_eq_some_iff.1 hStart.2
      rw [hStart.1]
      exact .unclosedComment (Lexer.blockEnd?_eq_none_iff.1 hEnd)
  | case5 offset c s hBlank hLine hStart stop rest hEnd ih =>
      obtain ⟨after, rfl⟩ := List.head?_eq_some_iff.1 hStart.2
      obtain ⟨comment, hCloses, rfl, rfl⟩ := Lexer.blockEnd?_eq_some_iff.1 hEnd
      rw [hStart.1]
      exact .blockComment hCloses ih
  | case6 offset c s hBlank hLine hStart b hOpening ih =>
      rw [Bracket.ofOpening?_eq_some.1 hOpening]
      exact .opening b ih
  | case7 offset c s hBlank hLine hStart b hClosing hOpening ih =>
      rw [Bracket.ofClosing?_eq_some.1 hClosing]
      exact .closing b ih
  | case8 offset c s hBlank hLine hStart hClosing hOpening more ih =>
      have hAtom := isAtomChar_iff.2 ⟨Bool.eq_false_iff.2 hBlank, hOpening, hClosing, hLine⟩
      exact .atomChar hAtom hStart ih

end Lisp
