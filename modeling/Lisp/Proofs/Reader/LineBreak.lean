import Lisp.Proofs.Expr.Equality
import Lisp.Proofs.Lexer.LineBreak
import Lisp.Proofs.Reader.Form
import Lisp.Proofs.Reader.Relocation
import Mathlib.Data.List.Forall2

/-! Reading on from a line break. Main statement: a text that is read without a fault can be
read before another text, line by line, and a fault that more input cannot mend is final. -/

namespace Lisp

variable {F : Type}

theorem ReadError.relocate_add (count : Nat) :
    ReadError.relocate (· + count) = ReadError.shift count := by
  funext err
  cases err <;> rfl

namespace TokenStream

theorem next_shift (count : Nat) (s : TokenStream) :
    (next (s.shift count) : Except ReadError (Option (Expr F)) × TokenStream) =
      ((next s).1.mapError (ReadError.shift count), (next (F := F) s).2.shift count) := by
  rw [← ReadError.relocate_add]
  exact next_relocate (· + count) s

theorem all_shift (count : Nat) {s : TokenStream} {es : List (Expr F)} {err : Option ReadError}
    (hAll : s.all = (es, err)) : (s.shift count).all = (es, err.map (ReadError.shift count)) := by
  rw [← ReadError.relocate_add]
  exact all_relocate (· + count) hAll

end TokenStream

/-- Where the tokens stand does not matter to the grammar. -/
theorem Derives.shift (count : Nat) {tokens : List Token} {e : Expr F}
    (hDerives : Derives tokens e) : Derives (tokens.map (Token.shift count)) e := by
  have hNext := (TokenStream.next_eq_ok_some_iff none tokens [] e).2 hDerives
  have hMoved := TokenStream.next_shift (F := F) count ⟨tokens ++ [], none⟩
  rw [hNext, TokenStream.shift, List.map_append] at hMoved
  exact (TokenStream.next_eq_ok_some_iff none _ [] e).1 hMoved

namespace TokenStream.ReadsForms

variable {unclosedComment : Option Nat} {tokens : List Token} {forms : List (Nat × Expr F)}
  {fault : Option ReadError}

theorem shift (count : Nat) (hForms : ReadsForms unclosedComment tokens forms fault) :
    ReadsForms (unclosedComment.map (· + count)) (tokens.map (Token.shift count))
      (forms.map (Prod.map (· + count) id)) (fault.map (ReadError.shift count)) := by
  induction hForms with
  | @last tokens fault hLast =>
      refine .last ((congrArg Prod.fst (next_shift count ⟨tokens, unclosedComment⟩)).trans ?_)
      rw [hLast]
      cases fault <;> rfl
  | @form t more rest e forms fault hDerives hRest ih =>
      rw [List.map_append]
      exact .form (hDerives.shift count) ih

/-- Forms without a fault are read in front of others. -/
theorem append {unclosedComment' : Option Nat} {later : List Token}
    {laterForms : List (Nat × Expr F)} (hForms : ReadsForms unclosedComment tokens forms none)
    (hLater : ReadsForms unclosedComment' later laterForms fault) :
    ReadsForms unclosedComment' (tokens ++ later) (forms ++ laterForms) fault := by
  induction forms generalizing tokens with
  | nil =>
      obtain ⟨hLast⟩ := hForms
      obtain ⟨rfl, -⟩ := eq_nil_of_nextWithin .nil hLast
      exact hLater
  | cons form forms ih =>
      cases hForms with
      | form hDerives hRest =>
          rw [List.append_assoc]
          exact .form hDerives (ih hRest)

theorem unclosedComment_eq_none (hForms : ReadsForms unclosedComment tokens forms none) :
    unclosedComment = none := by
  induction forms generalizing tokens with
  | nil =>
      obtain ⟨hLast⟩ := hForms
      exact (eq_nil_of_nextWithin .nil hLast).2
  | cons form forms ih =>
      cases hForms with
      | form hDerives hRest => exact ih hRest

end TokenStream.ReadsForms

/-- The tokens after a line break are those of the text alone, further on, unless a block comment
is open at the line break. -/
theorem lex_append_newline {s : Text} (hClosed : (lex s).unclosedComment = none) (t : Text) :
    lex (s ++ '\n' :: t) = (lex s).append ((lex t).shift (s.length + 1)) := by
  obtain ⟨later, hLater, hAlone⟩ := (lexes_lexFrom 0 s).append_newline t
  rw [lex, hLater.lexFrom_eq, hAlone hClosed, Nat.zero_add, lexFrom_eq_shift (s.length + 1)]
  rfl

/-- The forms after a line break are those of the text alone, further on, if there is no fault
before it. -/
theorem HasForms.append_newline {s t : Text} {forms laterForms : List (Nat × Expr F)}
    {fault : Option ReadError} (hForms : HasForms s forms none)
    (hLater : HasForms t laterForms fault) :
    HasForms (s ++ '\n' :: t) (forms ++ laterForms.map (Prod.map (· + (s.length + 1)) id))
      (fault.map (ReadError.shift (s.length + 1))) := by
  rw [HasForms, lex_append_newline hForms.unclosedComment_eq_none]
  exact hForms.append (hLater.shift (s.length + 1))

@[simp] theorem readAll_nil : readAll [] = (([] : List (Expr F)), none) := by
  rw [readAll, lex, Lexer.lexFrom_nil]
  exact TokenStream.all_eq_none_iff.2 ⟨.nil, rfl⟩

/-- The text after a line break is read as it would be alone, if what stands before the line
break is read without a fault. -/
theorem readAll_append_newline_of_none {s t : Text} {es fs : List (Expr F)}
    {err : Option ReadError} (hFirst : readAll s = (es, none)) (hSecond : readAll t = (fs, err)) :
    readAll (s ++ '\n' :: t) = (es ++ fs, err.map (ReadError.shift (s.length + 1))) := by
  obtain ⟨hDerives, hClosed⟩ := TokenStream.all_eq_none_iff.1 hFirst
  rw [readAll, lex_append_newline hClosed]
  exact TokenStream.all_append hDerives (TokenStream.all_shift _ hSecond)

/-- What stands after a line break is not looked at, if there is a fault before it that more
input cannot mend. -/
theorem readAll_append_newline_of_error {s : Text} {es : List (Expr F)} {err : ReadError}
    (hFirst : readAll s = (es, some err)) (hHard : err.isIncomplete = false) (t : Text) :
    readAll (s ++ '\n' :: t) = (es, some err) := by
  obtain ⟨later, hLater, -⟩ := (lexes_lexFrom 0 s).append_newline t
  rw [readAll, lex, hLater.lexFrom_eq]
  exact TokenStream.all_append_of_error hFirst hHard later

/-- If both a text and the start of it before a line break are read without a fault, the rest is
read without one. -/
theorem exists_readAll_rest {s t : Text} {es fs : List (Expr F)} (hFirst : readAll s = (es, none))
    (hWhole : readAll (s ++ '\n' :: t) = (fs, none)) :
    ∃ rest, readAll t = (rest, none) ∧ fs = es ++ rest := by
  rcases hSecond : readAll (F := F) t with ⟨rest, err⟩
  rw [readAll_append_newline_of_none hFirst hSecond, Prod.mk.injEq,
    Option.map_eq_none_iff] at hWhole
  obtain ⟨hExprs, rfl⟩ := hWhole
  exact ⟨rest, rfl, hExprs.symm⟩

/-- Texts of one expression each are read in order where they stand on lines of their own. -/
theorem readAll_intercalate_newline {texts : List Text} {es : List (Expr F)}
    (hTexts : List.Forall₂ (fun text e => readAll text = ([e], none)) texts es) :
    readAll (['\n'].intercalate texts) = (es, none) := by
  induction hTexts with
  | nil => exact readAll_nil
  | @cons text e texts es hText hRest ih =>
      cases hRest with
      | nil => rwa [List.intercalate_singleton]
      | cons =>
          rw [List.intercalate_cons_cons, List.append_assoc, List.singleton_append]
          exact readAll_append_newline_of_none hText ih

/-- A line break divides a reading. If a text is read without a fault, the text after the line
break is read as it would be alone, and its fault only moves. If a text has a fault that more
input cannot mend, what stands after the line break is not looked at. -/
theorem readAll_append_newline (s t : Text) :
    ((readAll (F := F) s).2 = none →
      readAll (F := F) (s ++ '\n' :: t) =
        ((readAll s).1 ++ (readAll t).1,
          (readAll (F := F) t).2.map (.shift (s.length + 1)))) ∧
    (∀ err, (readAll (F := F) s).2 = some err → err.isIncomplete = false →
      readAll (F := F) (s ++ '\n' :: t) = ((readAll s).1, some err)) := by
  constructor
  · intro hNone
    exact readAll_append_newline_of_none (Prod.ext rfl hNone) rfl
  · intro err hErr hHard
    exact readAll_append_newline_of_error (Prod.ext rfl hErr) hHard t

theorem readAll_append_newline_comment_closer :
    readAll ("(a . b) ; c".toList ++ '\n' :: "d (e]".toList) =
        (([.pair (.symbol ['a']) (.symbol ['b']), .symbol ['d']] : List Datum),
          some (.mismatchedCloser .square .round 14 16)) ∧
      readAll ("a ) b".toList ++ '\n' :: "(c".toList) =
        (([.symbol ['a']] : List Datum), some (.unexpectedCloser .round 2)) := by
  constructor
  · have hFirst : readAll "(a . b) ; c".toList =
        (([.pair (.symbol ['a']) (.symbol ['b'])] : List Datum), none) := by decide +kernel
    have hSecond : readAll "d (e]".toList =
        (([.symbol ['d']] : List Datum), some (.mismatchedCloser .square .round 2 4)) := by
      decide +kernel
    rw [(readAll_append_newline _ _).1 (congrArg Prod.snd hFirst), hFirst, hSecond]
    rfl
  · have hFirst : readAll "a ) b".toList =
        (([.symbol ['a']] : List Datum), some (.unexpectedCloser .round 2)) := by decide +kernel
    rw [(readAll_append_newline _ _).2 _ (congrArg Prod.snd hFirst) rfl, hFirst]

end Lisp
