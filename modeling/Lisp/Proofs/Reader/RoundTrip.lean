import Lisp.Proofs.Expr.Print
import Lisp.Proofs.Reader.Readable

/-! Printing and reading back. A text spells an expression if it is lexed to tokens of that
expression wherever it stands. Main statement: an expression reads back from its text exactly if
its numbers are not too long and its names are readable. -/

namespace Lisp

variable {F : Type}

/-- Wherever the text stands, its tokens are those of the expression. No atom may go on
after it. -/
def Spells (s : Text) (e : Expr F) : Prop :=
  ∀ offset rest stream, EndsAtom rest → Lexes (offset + s.length) rest stream →
    ∃ tokens, Lexes offset (s ++ rest) (TokenStream.append ⟨tokens, none⟩ stream) ∧
      Derives tokens e

/-- Wherever the text stands, its tokens end a list: `e` is what is left of the list after some
items. -/
def SpellsTail (s : Text) (e : Expr F) : Prop :=
  (∀ rest, EndsAtom (s ++ rest)) ∧
    ∀ offset rest stream, Lexes (offset + s.length) rest stream →
      ∃ tokens, Lexes offset (s ++ rest) (TokenStream.append ⟨tokens, none⟩ stream) ∧
        ∀ openedAt first items, DerivesAll first items → items ≠ [] →
          Derives (⟨.opener .round, openedAt⟩ :: first ++ tokens) (.ofList items e)

theorem endsAtom_cons {c : Char} (hEnd : isAtomChar c = false) (s : Text) : EndsAtom (c :: s) := by
  simpa [EndsAtom] using hEnd

theorem spells_atom {s : Text} {e : Expr F} (hAtom : IsAtom s) (hDot : s ≠ ['.'])
    (hRead : readAtom s = .ok e) : Spells s e := by
  intro offset rest stream hEnds hLexes
  exact ⟨[⟨.atom s, offset⟩], .atom hAtom hEnds hLexes, .atom hDot hRead⟩

theorem spells_nil : Spells ['(', ')'] (.nil : Expr F) := by
  intro offset rest stream hEnds hLexes
  exact ⟨[⟨.opener .round, offset⟩, ⟨.closer .round, offset + 1⟩],
    .opening .round (.closing .round hLexes), .list .nil⟩

section

variable {first others last : Text} {head tail e : Expr F}

/-- What both kinds of pairs have in common: the items are lexed after one character. -/
theorem exists_tokens_of_pair (hHead : Spells first head) (hTail : SpellsTail others tail)
    {offset : Nat} {c : Char} {rest : Text} {stream : TokenStream}
    (hLexes : Lexes (offset + (c :: first ++ others).length) rest stream) :
    ∃ headTokens tailTokens,
      Lexes (offset + 1) (first ++ (others ++ rest))
        (TokenStream.append ⟨headTokens ++ tailTokens, none⟩ stream) ∧
      Derives headTokens head ∧
      ∀ openedAt before items, DerivesAll before items → items ≠ [] →
        Derives (⟨.opener .round, openedAt⟩ :: before ++ tailTokens) (.ofList items tail) := by
  have hOffset : offset + (c :: first ++ others).length =
      offset + 1 + first.length + others.length := by
    simp only [List.cons_append, List.length_cons, List.length_append]
    omega
  rw [hOffset] at hLexes
  obtain ⟨tailTokens, hTailLexes, hTailDerives⟩ := hTail.2 _ rest stream hLexes
  obtain ⟨headTokens, hHeadLexes, hHeadDerives⟩ := hHead _ _ _ (hTail.1 rest) hTailLexes
  refine ⟨headTokens, tailTokens, ?_, hHeadDerives, hTailDerives⟩
  simpa [TokenStream.append] using hHeadLexes

theorem spells_pair (hHead : Spells first head) (hTail : SpellsTail others tail) :
    Spells ('(' :: first ++ others) (.pair head tail) := by
  intro offset rest stream hEnds hLexes
  obtain ⟨headTokens, tailTokens, hInner, hHeadDerives, hTailDerives⟩ :=
    exists_tokens_of_pair hHead hTail hLexes
  refine ⟨⟨.opener .round, offset⟩ :: headTokens ++ tailTokens, ?_, ?_⟩
  · rw [List.append_assoc]
    exact .opening .round hInner
  · exact hTailDerives offset headTokens [head] hHeadDerives.single (by simp)

theorem spellsTail_nil : SpellsTail [')'] (.nil : Expr F) := by
  refine ⟨fun rest => endsAtom_cons (by decide) rest, fun offset rest stream hLexes => ?_⟩
  refine ⟨[⟨.closer .round, offset⟩], .closing .round hLexes, ?_⟩
  intro openedAt before items hItems hSome
  exact .list hItems

theorem spellsTail_pair (hHead : Spells first head) (hTail : SpellsTail others tail) :
    SpellsTail (' ' :: first ++ others) (.pair head tail) := by
  refine ⟨fun rest => endsAtom_cons (by decide) _, fun offset rest stream hLexes => ?_⟩
  obtain ⟨headTokens, tailTokens, hInner, hHeadDerives, hTailDerives⟩ :=
    exists_tokens_of_pair hHead hTail hLexes
  refine ⟨headTokens ++ tailTokens, ?_, ?_⟩
  · rw [List.append_assoc]
    exact .blank rfl hInner
  · intro openedAt before items hItems hSome
    have hDerives := hTailDerives openedAt (before ++ headTokens) (items ++ [head])
      (hItems.append hHeadDerives.single) (by simp)
    simpa [Expr.ofList] using hDerives

theorem spellsTail_dotted (hLast : Spells last e) :
    SpellsTail (" . ".toList ++ last ++ [')']) e := by
  refine ⟨fun rest => endsAtom_cons (by decide) _, fun offset rest stream hLexes => ?_⟩
  have hOffset : offset + (" . ".toList ++ last ++ [')']).length =
      offset + 1 + 1 + 1 + last.length + 1 := by
    simp
    omega
  rw [hOffset] at hLexes
  obtain ⟨lastTokens, hLastLexes, hLastDerives⟩ :=
    hLast _ _ _ (endsAtom_cons (by decide) rest) (.closing .round hLexes)
  refine ⟨⟨.atom ['.'], offset + 1⟩ :: lastTokens ++
    [⟨.closer .round, offset + 1 + 1 + 1 + last.length⟩], ?_, ?_⟩
  · have hDot : IsAtom ['.'] := ⟨by simp, List.forall_mem_singleton.2 rfl, by simp⟩
    have hAfter := Lexes.atom hDot (endsAtom_cons (c := ' ') (by decide) _)
      (.blank rfl hLastLexes)
    simpa [TokenStream.append, TokenStream.cons, Bracket.closing] using Lexes.blank rfl hAfter
  · intro openedAt before items hItems hSome
    have hDerives := @Derives.dotted F .round openedAt (offset + 1)
      (offset + 1 + 1 + 1 + last.length) _ _ _ _ hItems hSome hLastDerives
    simpa using hDerives

end

theorem isAtomChar_of_isDigit {c : Char} (hDigit : c.isDigit = true) : isAtomChar c = true := by
  have hRange : 48 ≤ c.toNat ∧ c.toNat ≤ 57 := by
    simpa [Char.isDigit, UInt32.le_iff_toNat_le] using hDigit
  have hBlank : Text.isBlank c = false := by
    simp [Text.isBlank]
    omega
  have hOther : ∀ d : Char, d.isDigit = false → c ≠ d := by
    rintro d hNot rfl
    simp [hDigit] at hNot
  simp [isAtomChar, hBlank, Bracket.ofOpening?, Bracket.ofClosing?, hOther '(' rfl,
    hOther '[' rfl, hOther ')' rfl, hOther ']' rfl, hOther ';' rfl]

/-- A numeral is an atom. -/
theorem isAtom_of_isNumeral {s : Text} (hNumeral : Numeral.isNumeral s = true) :
    IsAtom s ∧ s ≠ ['.'] := by
  have hSign : ∀ c ∈ s, c = '+' ∨ c = '-' ∨ c ∈ Numeral.unsigned s := by
    unfold Numeral.unsigned
    split <;> simp +contextual
  simp only [Numeral.isNumeral, Bool.and_eq_true, Bool.not_eq_true', List.isEmpty_eq_false_iff,
    List.all_eq_true] at hNumeral
  obtain ⟨hSome, hDigits⟩ := hNumeral
  have hNumeralChar : ∀ c ∈ s, isAtomChar c = true ∧ c ≠ '#' ∧ c ≠ '.' := by
    intro c hMem
    rcases hSign c hMem with rfl | rfl | hUnsigned
    · decide
    · decide
    · have hDigit := hDigits c hUnsigned
      refine ⟨isAtomChar_of_isDigit hDigit, ?_, ?_⟩
      · rintro rfl
        cases hDigit
      · rintro rfl
        cases hDigit
  refine ⟨⟨?_, fun c hMem => (hNumeralChar c hMem).1, ?_⟩, ?_⟩
  · rintro rfl
    exact hSome rfl
  · rintro ⟨rest, rfl⟩
    exact (hNumeralChar '#' (by simp)).2.1 rfl
  · rintro rfl
    exact (hNumeralChar '.' (by simp)).2.2 rfl

/-- A number that can be written is read back from its text. -/
theorem exists_numberText {value : Int}
    (hLength : (Numeral.digits value.natAbs).length ≤ Numeral.maxDigits) :
    ∃ s, (Expr.numberText value : Except (PrintError F) Text) = .ok s ∧
      Spells s (.int value : Expr F) := by
  have hWrite : Numeral.write? value = some (Numeral.text value) := if_pos hLength
  obtain ⟨hNumeral, hValue⟩ := Numeral.value_of_write? hWrite
  obtain ⟨hAtom, hDot⟩ := isAtom_of_isNumeral hNumeral
  have hUnsigned : Numeral.unsigned (Numeral.text value) = Numeral.digits value.natAbs := by
    unfold Numeral.text
    split
    · rfl
    · exact Numeral.unsigned_digits _
  refine ⟨Numeral.text value, by simp [Expr.numberText, hWrite], spells_atom hAtom hDot ?_⟩
  simp [readAtom, hNumeral, hUnsigned, hLength, hValue]

theorem spells_bool (b : Bool) :
    Spells (if b then ['#', 't'] else ['#', 'f']) (.bool b : Expr F) := by
  have hText : isAtomText (if b then ['#', 't'] else ['#', 'f']) = true := by cases b <;> rfl
  obtain ⟨hAtom, hDot⟩ := isAtomText_iff.1 hText
  cases b <;> exact spells_atom hAtom hDot rfl

theorem spells_symbol {name : Text} (hName : isReadableName name = true) :
    Spells name (.symbol name : Expr F) := by
  obtain ⟨hText, hRead⟩ := (isReadableName_iff (F := F)).1 hName
  obtain ⟨hAtom, hDot⟩ := isAtomText_iff.1 hText
  exact spells_atom hAtom hDot hRead

/-- What is no pair and not the empty list stands after a dot where it ends a list. -/
theorem exists_writtenTail_of_written {e : Expr F} (hNil : e ≠ .nil)
    (hPair : ∀ head tail, e ≠ .pair head tail) (hWritten : ∃ s, e.written = .ok s ∧ Spells s e) :
    (∃ s, e.written = .ok s ∧ Spells s e) ∧ ∃ s, e.writtenTail = .ok s ∧ SpellsTail s e := by
  obtain ⟨s, hText, hSpells⟩ := hWritten
  refine ⟨⟨s, hText, hSpells⟩, _, ?_, spellsTail_dotted hSpells⟩
  rw [Expr.written_eq_atomText hPair] at hText
  rw [Expr.writtenTail_eq_atomText hNil hPair, hText]
  rfl

/-- What can be printed is spelled by its text, as a whole and as what is left of a list. -/
theorem exists_written_of_isReadable {e : Expr F} (hReadable : e.isReadable = true) :
    (∃ s, e.written = .ok s ∧ Spells s e) ∧ ∃ s, e.writtenTail = .ok s ∧ SpellsTail s e := by
  induction e with
  | int value =>
      simp only [Expr.isReadable, decide_eq_true_eq] at hReadable
      obtain ⟨s, hText, hSpells⟩ := exists_numberText (F := F) hReadable
      exact exists_writtenTail_of_written (by simp) (by simp)
        ⟨s, by simpa [Expr.written, Expr.atomText] using hText, hSpells⟩
  | bool value =>
      exact exists_writtenTail_of_written (by simp) (by simp)
        ⟨_, by simp [Expr.written, Expr.atomText], spells_bool value⟩
  | symbol name =>
      exact exists_writtenTail_of_written (by simp) (by simp)
        ⟨_, by simp [Expr.written, Expr.atomText], spells_symbol hReadable⟩
  | nil =>
      exact ⟨⟨_, by simp [Expr.written, Expr.atomText], spells_nil⟩,
        _, by simp [Expr.writtenTail], spellsTail_nil⟩
  | pair head tail ihHead ihTail =>
      simp only [Expr.isReadable, Bool.and_eq_true] at hReadable
      obtain ⟨⟨first, hFirst, hHead⟩, -⟩ := ihHead hReadable.1
      obtain ⟨-, others, hOthers, hTail⟩ := ihTail hReadable.2
      constructor
      · refine ⟨_, ?_, spells_pair hHead hTail⟩
        simp [Expr.written, hFirst, hOthers, bind, Except.bind, pure, Except.pure]
      · refine ⟨_, ?_, spellsTail_pair hHead hTail⟩
        simp [Expr.writtenTail, hFirst, hOthers, bind, Except.bind, pure, Except.pure]
  | host value => cases hReadable

/-- What can be printed is the one expression of its text. -/
theorem exists_print_of_isReadable {e : Expr F} (hReadable : e.isReadable = true) :
    ∃ s, e.print = .ok s ∧ readAll s = ([e], none) := by
  obtain ⟨⟨s, hWritten, hSpells⟩, -⟩ := exists_written_of_isReadable hReadable
  obtain ⟨tokens, hLexes, hDerives⟩ := hSpells 0 [] ⟨[], none⟩ (by simp [EndsAtom]) (.nil _)
  refine ⟨s, e.print_eq_written.trans hWritten, ?_⟩
  rw [List.append_nil] at hLexes
  rw [readAll, lex, hLexes.lexFrom_eq]
  exact TokenStream.all_eq_none_iff.2 ⟨by simpa [TokenStream.append] using hDerives.single, rfl⟩

/-- An expression reads back from its text exactly if its numbers are not too long and its names
are readable. -/
theorem read_print_iff_isReadable (e : Datum) :
    (∃ s, e.print = .ok s ∧ read s = .ok e) ↔ e.isReadable = true := by
  constructor
  · rintro ⟨s, -, hRead⟩
    exact isReadable_of_mem_readAll (read_eq_ok_iff.1 hRead) e (by simp)
  · intro hReadable
    obtain ⟨s, hPrint, hRead⟩ := exists_print_of_isReadable hReadable
    exact ⟨s, hPrint, read_eq_ok_iff.2 hRead⟩

end Lisp
