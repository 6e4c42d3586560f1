import Lisp.Text.Blank
import Lisp.Token

/-! From source text to tokens. Every character is a part of a token or of the layout
between tokens, so the one fault there can be is a block comment without its end. -/

namespace Lisp

/-- The characters that an atom is made of: all but white space, brackets and the
semicolon. -/
def isAtomChar (c : Char) : Bool :=
  !Text.isBlank c && (Bracket.ofOpening? c).isNone && (Bracket.ofClosing? c).isNone && c != ';'

/-- A character that is no white space, begins no line comment and is no bracket is a part of an
atom. So no character is unexpected: where the lexer has ruled out all else, an atom begins. -/
theorem isAtomChar_iff {c : Char} :
    isAtomChar c = true ↔ Text.isBlank c = false ∧ Bracket.ofOpening? c = none ∧
      Bracket.ofClosing? c = none ∧ c ≠ ';' := by
  simp only [isAtomChar, Bool.and_eq_true, Bool.not_eq_true', Option.isNone_iff_eq_none,
    bne_iff_ne, and_assoc]

namespace Lexer

/-- Where a block comment ends, and the text after it. The comment is `depth` levels
deep where the text begins. It has no end if the text ends first. -/
def blockEnd? : (depth offset : Nat) → Text → Option (Nat × Text)
  | 0, offset, s => some (offset, s)
  | _ + 1, _, [] => none
  | depth + 1, offset, '#' :: '|' :: s => blockEnd? (depth + 2) (offset + 2) s
  | depth + 1, offset, '|' :: '#' :: s => blockEnd? depth (offset + 2) s
  | depth + 1, offset, _ :: s => blockEnd? (depth + 1) (offset + 1) s

theorem length_of_blockEnd? {depth offset stop : Nat} {s rest : Text}
    (hEnd : blockEnd? depth offset s = some (stop, rest)) :
    offset ≤ stop ∧ stop + rest.length = offset + s.length := by
  fun_induction blockEnd? depth offset s with
  | case1 => simp_all
  | case2 => simp at hEnd
  | case3 _ _ _ ih => have := ih hEnd; simp; omega
  | case4 _ _ _ ih => have := ih hEnd; simp; omega
  | case5 _ _ _ _ _ _ ih => have := ih hEnd; simp; omega

/-- The tokens of a text that begins at this offset of the source. White space, line
comments and block comments stand between tokens and are skipped. The newline that
ends a line comment is not a part of it. -/
def lexFrom (offset : Nat) : Text → TokenStream
  | [] => ⟨[], none⟩
  | c :: s =>
    if Text.isBlank c then lexFrom (offset + 1) s
    else if c = ';' then
      let comment := s.takeWhile (· != '\n')
      lexFrom (offset + 1 + comment.length) (s.drop comment.length)
    else if c = '#' ∧ s.head? = some '|' then
      match _ : blockEnd? 1 (offset + 2) s.tail with
      | none => ⟨[], some offset⟩
      | some (stop, rest) => lexFrom stop rest
    else
      match Bracket.ofOpening? c, Bracket.ofClosing? c with
      | some b, _ => (lexFrom (offset + 1) s).cons ⟨.opener b, offset⟩
      | none, some b => (lexFrom (offset + 1) s).cons ⟨.closer b, offset⟩
      | none, none =>
        let more := s.takeWhile isAtomChar
        (lexFrom (offset + 1 + more.length) (s.drop more.length)).cons ⟨.atom (c :: more), offset⟩
termination_by s => s.length
decreasing_by
  all_goals simp_wf
  all_goals first
    | omega
    | (rename_i hEnd; have := length_of_blockEnd? hEnd; simp at this; omega)

@[simp] theorem lexFrom_nil (offset : Nat) : lexFrom offset [] = ⟨[], none⟩ := by
  rw [lexFrom.eq_def]

theorem lexFrom_of_isBlank {c : Char} (hBlank : Text.isBlank c = true) (offset : Nat)
    (s : Text) : lexFrom offset (c :: s) = lexFrom (offset + 1) s := by
  rw [lexFrom.eq_def]
  simp only [hBlank, if_true]

/-- A line comment reaches up to the next newline. -/
theorem lexFrom_semicolon (offset : Nat) (s : Text) :
    lexFrom offset (';' :: s) =
      lexFrom (offset + 1 + (s.takeWhile (· != '\n')).length)
        (s.drop (s.takeWhile (· != '\n')).length) := by
  have hBlank : Text.isBlank ';' = false := rfl
  rw [lexFrom.eq_def]
  simp only [hBlank, Bool.false_eq_true, if_false, if_true]

/-- A block comment that has an end is skipped. -/
theorem lexFrom_of_blockEnd?_eq_some {offset stop : Nat} {s rest : Text}
    (hEnd : blockEnd? 1 (offset + 2) s = some (stop, rest)) :
    lexFrom offset ('#' :: '|' :: s) = lexFrom stop rest := by
  have hBlank : Text.isBlank '#' = false := rfl
  have hLine : ¬ '#' = ';' := by decide
  rw [lexFrom.eq_def]
  simp only [hBlank, hLine, Bool.false_eq_true, if_false, List.head?_cons, List.tail_cons,
    and_self, if_true]
  split <;> simp_all

/-- A block comment that has no end ends the tokens. -/
theorem lexFrom_of_blockEnd?_eq_none {offset : Nat} {s : Text}
    (hEnd : blockEnd? 1 (offset + 2) s = none) :
    lexFrom offset ('#' :: '|' :: s) = ⟨[], some offset⟩ := by
  have hBlank : Text.isBlank '#' = false := rfl
  have hLine : ¬ '#' = ';' := by decide
  rw [lexFrom.eq_def]
  simp only [hBlank, hLine, Bool.false_eq_true, if_false, List.head?_cons, List.tail_cons,
    and_self, if_true]
  split <;> simp_all

theorem lexFrom_opening (b : Bracket) (offset : Nat) (s : Text) :
    lexFrom offset (b.opening :: s) = (lexFrom (offset + 1) s).cons ⟨.opener b, offset⟩ := by
  have hBlank : Text.isBlank b.opening = false := by cases b <;> rfl
  have hLine : ¬ b.opening = ';' := by cases b <;> decide
  have hHash : ¬ b.opening = '#' := by cases b <;> decide
  rw [lexFrom.eq_def]
  simp only [hBlank, hLine, hHash, Bool.false_eq_true, if_false, false_and,
    Bracket.ofOpening?_opening]

theorem lexFrom_closing (b : Bracket) (offset : Nat) (s : Text) :
    lexFrom offset (b.closing :: s) = (lexFrom (offset + 1) s).cons ⟨.closer b, offset⟩ := by
  have hBlank : Text.isBlank b.closing = false := by cases b <;> rfl
  have hLine : ¬ b.closing = ';' := by cases b <;> decide
  have hHash : ¬ b.closing = '#' := by cases b <;> decide
  have hOpening : Bracket.ofOpening? b.closing = none := by cases b <;> rfl
  rw [lexFrom.eq_def]
  simp only [hBlank, hLine, hHash, hOpening, Bool.false_eq_true, if_false, false_and,
    Bracket.ofClosing?_closing]

/-- An atom reaches as far as its characters do. It does not begin like a block comment. -/
theorem lexFrom_of_isAtomChar {c : Char} {s : Text} (hAtom : isAtomChar c = true)
    (hComment : ¬ (c = '#' ∧ s.head? = some '|')) (offset : Nat) :
    lexFrom offset (c :: s) =
      (lexFrom (offset + 1 + (s.takeWhile isAtomChar).length)
        (s.drop (s.takeWhile isAtomChar).length)).cons
          ⟨.atom (c :: s.takeWhile isAtomChar), offset⟩ := by
  obtain ⟨hBlank, hOpening, hClosing, hLine⟩ := isAtomChar_iff.1 hAtom
  rw [lexFrom.eq_def]
  simp only [hBlank, hOpening, hClosing, hLine, hComment, Bool.false_eq_true, if_false]

end Lexer

/-- The tokens of a source text. -/
def lex (source : Text) : TokenStream := Lexer.lexFrom 0 source

end Lisp
