import Lisp.Proofs.Lexer.LineBreak
import Lisp.Proofs.Reader.Sequence
import Lisp.Reader.Read
import Lisp.Reader.Readable
import Mathlib.Algebra.Group.Nat.Defs

/-! What reading makes can be printed: its names are readable and its numbers are not too long.
An atom that is read as a symbol is the name of it, so the class of a name is settled by the
lexer and the class of the atom. -/

namespace Lisp

variable {F : Type}

theorem isAtomText_iff {s : Text} : isAtomText s = true ↔ IsAtom s ∧ s ≠ ['.'] := by
  have hPrefix : ['#', '|'].isPrefixOf s = false ↔ ¬ ['#', '|'] <+: s := by
    rw [← List.isPrefixOf_iff_prefix, Bool.not_eq_true]
  simp only [isAtomText, Bool.and_eq_true, Bool.not_eq_true', hPrefix, List.all_eq_true,
    bne_iff_ne, ne_eq, List.isEmpty_eq_false_iff]
  constructor
  · rintro ⟨⟨⟨hSome, hChars⟩, hComment⟩, hDot⟩
    exact ⟨⟨hSome, hChars, hComment⟩, hDot⟩
  · rintro ⟨⟨hSome, hChars, hComment⟩, hDot⟩
    exact ⟨⟨⟨hSome, hChars⟩, hComment⟩, hDot⟩

namespace Numeral

theorem ofDigitChars_lt {s : Text} (hDigits : ∀ c ∈ s, c.isDigit = true) :
    Nat.ofDigitChars 10 s 0 < 10 ^ s.length := by
  induction s with
  | nil => simp
  | cons c s ih =>
      have hRest := ih fun d hMem => hDigits d (by simp [hMem])
      have hFirst : c.toNat - '0'.toNat ≤ 9 := by
        have hDigit := hDigits c (by simp)
        simp only [Char.isDigit, Bool.and_eq_true, decide_eq_true_eq] at hDigit
        have hHigh : c.toNat ≤ '9'.toNat := hDigit.2
        simp at hHigh ⊢
        omega
      rw [Nat.ofDigitChars_cons, Nat.ofDigitChars_eq_ofDigitChars_zero, List.length_cons,
        Nat.pow_succ, Nat.mul_zero, Nat.zero_add]
      calc
        _ < 10 ^ s.length * (c.toNat - '0'.toNat) + 10 ^ s.length := Nat.add_lt_add_left hRest _
        _ = 10 ^ s.length * ((c.toNat - '0'.toNat) + 1) := (Nat.mul_succ _ _).symm
        _ ≤ 10 ^ s.length * 10 := Nat.mul_le_mul_left _ (by omega)

/-- The number of a numeral has no more digits than the numeral. -/
theorem length_digits_value_le {s : Text} (hNumeral : isNumeral s = true) :
    (digits (value s).natAbs).length ≤ (unsigned s).length := by
  simp only [isNumeral, Bool.and_eq_true, Bool.not_eq_true', List.isEmpty_eq_false_iff,
    List.all_eq_true] at hNumeral
  have hAbs : (value s).natAbs = Nat.ofDigitChars 10 (unsigned s) 0 := by
    unfold value
    dsimp only
    split <;> simp
  rw [hAbs, digits, Nat.length_toDigits_le_iff (by decide) (List.length_pos_iff.2 hNumeral.1)]
  exact ofDigitChars_lt hNumeral.2

end Numeral

/-- What an atom stands for can be printed. -/
theorem isReadable_of_readAtom {s : Text} {e : Expr F} (hAtom : IsAtom s) (hDot : s ≠ ['.'])
    (hRead : readAtom s = .ok e) : e.isReadable = true := by
  by_cases hNumeral : Numeral.isNumeral s = true
  · have hLength := Numeral.length_digits_value_le hNumeral
    simp only [readAtom, hNumeral, if_true] at hRead
    split at hRead
    · cases hRead
      simp only [Expr.isReadable, decide_eq_true_eq]
      omega
    · cases hRead
  · cases hBoolean : booleanNamed? s with
    | some b =>
        simp only [readAtom, hNumeral, hBoolean] at hRead
        cases hRead
        rfl
    | none =>
        cases hNil : isNilName s with
        | true =>
            simp only [readAtom, hNumeral, hBoolean, hNil] at hRead
            cases hRead
            rfl
        | false =>
            have hText := isAtomText_iff.2 ⟨hAtom, hDot⟩
            simp only [readAtom, hNumeral, hBoolean, hNil] at hRead
            cases hRead
            simp [Expr.isReadable, isReadableName, hText, hNumeral, hBoolean, hNil]

theorem Expr.isReadable_ofList {items : List (Expr F)} {tail : Expr F} :
    (Expr.ofList items tail).isReadable = true ↔
      (∀ e ∈ items, e.isReadable = true) ∧ tail.isReadable = true := by
  induction items with
  | nil => simp
  | cons e items ih => simp [Expr.isReadable, ih, and_assoc]

/-- The atoms among these tokens are whole atoms, as they are where tokens come from a text. -/
def AreLexed (tokens : List Token) : Prop :=
  ∀ t ∈ tokens, ∀ text, t.kind = .atom text → IsAtom text

mutual

theorem Derives.isReadable {tokens : List Token} {e : Expr F} (hDerives : Derives tokens e) :
    AreLexed tokens → e.isReadable = true := by
  match hDerives with
  | .atom hDot hRead =>
      intro hLexed
      exact isReadable_of_readAtom (hLexed _ (List.mem_singleton.2 rfl) _ rfl) hDot hRead
  | .list hItems =>
      intro hLexed
      exact Expr.isReadable_ofList.2
        ⟨hItems.isReadable fun t hMem => hLexed t (by simp [hMem]), rfl⟩
  | .dotted hItems hSome hTail =>
      intro hLexed
      exact Expr.isReadable_ofList.2
        ⟨hItems.isReadable fun t hMem => hLexed t (by simp [hMem]),
          hTail.isReadable fun t hMem => hLexed t (by simp [hMem])⟩

theorem DerivesAll.isReadable {tokens : List Token} {es : List (Expr F)}
    (hAll : DerivesAll tokens es) : AreLexed tokens → ∀ e ∈ es, e.isReadable = true := by
  match hAll with
  | .nil => simp
  | .cons hHead hRest =>
      intro hLexed
      refine List.forall_mem_cons.2 ⟨?_, ?_⟩
      · exact hHead.isReadable fun t hMem => hLexed t (by simp [hMem])
      · exact hRest.isReadable fun t hMem => hLexed t (by simp [hMem])

end

/-- All expressions that are read from a text can be printed, also those before a fault. -/
theorem isReadable_of_mem_readAll {s : Text} {es : List (Expr F)} {err : Option ReadError}
    (hRead : readAll s = (es, err)) : ∀ e ∈ es, e.isReadable = true := by
  obtain ⟨used, rest, hTokens, hUsed, -⟩ := TokenStream.exists_derivesAll_of_all hRead
  apply hUsed.isReadable
  intro t hMem
  exact (lexes_lexFrom 0 s).isAtom_of_mem t (hTokens ▸ List.mem_append_left rest hMem)

/-- There is nothing to read in white space. -/
theorem readAll_of_trim_eq_nil {s : Text} (hTrim : s.trim = []) :
    readAll s = (([] : List (Expr F)), none) := by
  obtain ⟨before, after, hText, hBefore, hAfter⟩ := exists_append_trimEnds Text.isBlank s
  have hLexes := Lexes.blanks hBefore (Lexes.blanks hAfter (.nil (0 + before.length + _)))
  rw [Text.trim] at hTrim
  rw [hTrim, List.append_nil] at hText
  rw [List.append_nil, ← hText] at hLexes
  rw [readAll, lex, hLexes.lexFrom_eq]
  exact TokenStream.all_eq_none_iff.2 ⟨.nil, rfl⟩

/-- A readable name is read as its symbol whatever white space stands around it. -/
theorem readAll_of_isReadableName_trim {s : Text} (hName : isReadableName s.trim = true) :
    readAll s = ([(.symbol s.trim : Expr F)], none) := by
  obtain ⟨hText, hRead⟩ := (isReadableName_iff (F := F)).1 hName
  obtain ⟨hAtom, hDot⟩ := isAtomText_iff.1 hText
  obtain ⟨before, after, hSplit, hBefore, hAfter⟩ := exists_append_trimEnds Text.isBlank s
  have hEnds : EndsAtom after := by
    intro c hMem
    simp [isAtomChar, hAfter c (List.mem_of_mem_head? hMem)]
  have hRest := Lexes.blanks hAfter (.nil (0 + before.length + s.trim.length + after.length))
  rw [List.append_nil] at hRest
  have hLexes := Lexes.blanks hBefore (.atom hAtom hEnds hRest)
  rw [← List.append_assoc, Text.trim, ← hSplit] at hLexes
  rw [readAll, lex, hLexes.lexFrom_eq]
  exact TokenStream.all_eq_none_iff.2 ⟨(Derives.atom hDot hRead).single, rfl⟩

theorem TokenStream.eq_of_peek {s : TokenStream} (hPeek : s.peek.1 = .ok none) :
    s = ⟨[], none⟩ := by
  obtain ⟨tokens, unclosedComment⟩ := s
  cases tokens <;> cases unclosedComment <;> simp_all [peek]

/-- Reading one expression is reading all expressions of a text that has just one. -/
theorem read_eq_ok_iff {s : Text} {e : Expr F} : read s = .ok e ↔ readAll s = ([e], none) := by
  constructor
  · intro hRead
    unfold read at hRead
    split at hRead
    · cases hRead
    · cases hRead
    · rename_i e' rest hNext
      split at hRead
      · cases hRead
      · rename_i hPeek
        cases hRead
        rw [TokenStream.eq_of_peek hPeek] at hNext
        exact TokenStream.all_of_next_some hNext (TokenStream.all_of_next_lastAnswer rfl)
      · cases hRead
  · intro hAll
    obtain ⟨later, hNext, hLater⟩ := TokenStream.next_of_all_cons hAll
    obtain ⟨hDerives, hComment⟩ := TokenStream.all_eq_none_iff.1 hLater
    obtain ⟨tokens, unclosedComment⟩ := later
    cases hComment
    cases hDerives
    simp [read, hNext, TokenStream.peek]

end Lisp
