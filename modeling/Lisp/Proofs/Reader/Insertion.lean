import Lisp.Proofs.Expr.Equality
import Lisp.Proofs.Lexer.Cut
import Lisp.Proofs.Reader.Relocation
import Lisp.Reader.Read

/-! Putting layout into a text. Main statement: white space and comments can be put in wherever
no atom and no comment is cut, and all that changes are the offsets behind them. -/

namespace Lisp

variable {F : Type}

/-- Where an offset of a text is after so many characters have been put in at a position. -/
def insertedAt (position count offset : Nat) : Nat :=
  if offset < position then offset else offset + count

theorem insertedAt_of_lt {position offset : Nat} (hBefore : offset < position) (count : Nat) :
    insertedAt position count offset = offset := if_pos hBefore

theorem insertedAt_add (position count offset : Nat) :
    insertedAt position count (offset + position) = offset + (position + count) := by
  rw [insertedAt, if_neg (by omega), Nat.add_assoc]

namespace TokenStream

variable {position : Nat} {tokens : List Token}

/-- Tokens before a position stay where they are, and those behind it move. -/
theorem relocate_append_shift (hBefore : ∀ t ∈ tokens, t.offset < position) (count : Nat)
    (later : TokenStream) :
    (append ⟨tokens, none⟩ (later.shift position)).relocate (insertedAt position count) =
      append ⟨tokens, none⟩ (later.shift (position + count)) := by
  have hStay : tokens.map (Token.relocate (insertedAt position count)) = tokens := by
    rw [List.map_congr_left (g := id), List.map_id]
    intro t hMem
    rw [Token.relocate, insertedAt_of_lt (hBefore t hMem)]
    rfl
  have hMove : ∀ t : Token, (t.shift position).relocate (insertedAt position count) =
      t.shift (position + count) := by
    intro t
    rw [Token.relocate, Token.shift, insertedAt_add]
    rfl
  simp only [relocate, append, shift, List.map_append, hStay, List.map_map, Option.map_map,
    Function.comp_def, hMove, insertedAt_add]

end TokenStream

/-- White space at the beginning of layout ends an atom before it. -/
theorem endsAtom_of_isBlank {space : Text} (hBlank : ∃ c ∈ space.head?, Text.isBlank c = true)
    (after : Text) : EndsAtom (space ++ after) := by
  obtain ⟨c, hHead, hBlank⟩ := hBlank
  obtain ⟨more, rfl⟩ := List.head?_eq_some_iff.1 hHead
  simp [EndsAtom, isAtomChar, hBlank]

/-- Layout between two pieces of a text moves the tokens behind it. -/
theorem IsCut.lex_insert {before after space : Text} (hCut : IsCut before after)
    (hLayout : Layout space) (hBlank : ∃ c ∈ space.head?, Text.isBlank c = true) :
    lex (before ++ (space ++ after)) =
      (lex (before ++ after)).relocate (insertedAt before.length space.length) := by
  obtain ⟨tokens, hBefore, hLex⟩ := hCut.exists_tokens 0
  rw [Nat.zero_add] at hBefore hLex
  rw [lex, hLex _ fun _ => endsAtom_of_isBlank hBlank after, Lexer.lexFrom_append_of_layout hLayout,
    lex, hLex after id, lexFrom_eq_shift, lexFrom_eq_shift,
    TokenStream.relocate_append_shift hBefore]

/-- Layout that begins with white space can be put into a text without an open comment at any
place that is inside no atom and inside no comment. The tokens stay the same and only those
behind the place move. So the same expressions are read, and if there is an error, the same
token is at fault. -/
theorem readAll_insert_layout {s space : Text} {position : Nat}
    (hClosed : (lex s).unclosedComment = none) (hBound : position ≤ s.length)
    (hAtom : ¬ InsideAtom s position) (hComment : ¬ InsideComment s position)
    (hLayout : Layout space) (hBlank : ∃ c ∈ space.head?, Text.isBlank c = true) :
    lex (s.take position ++ space ++ s.drop position) =
        (lex s).relocate (insertedAt position space.length) ∧
      readAll (F := F) (s.take position ++ space ++ s.drop position) =
        ((readAll (F := F) s).1,
          (readAll (F := F) s).2.map (.relocate (insertedAt position space.length))) := by
  obtain ⟨before, after, rfl, rfl⟩ : ∃ before after, s = before ++ after ∧
      before.length = position :=
    ⟨_, _, (List.take_append_drop position s).symm, List.length_take_of_le hBound⟩
  have hCut : IsCut before after := (isCut_iff hClosed).2 ⟨hAtom, hComment⟩
  have hLex := hCut.lex_insert hLayout hBlank
  rw [List.take_left, List.drop_left, List.append_assoc]
  refine ⟨hLex, ?_⟩
  rw [readAll, hLex]
  exact TokenStream.all_relocate _ rfl

theorem readAll_insert_layout_between_comments :
    lex "(a;b)\n #|(|#;)\n#|;|#c]".toList =
        ⟨[⟨.opener .round, 0⟩, ⟨.atom ['a'], 1⟩, ⟨.atom ['c'], 20⟩, ⟨.closer .square, 21⟩], none⟩ ∧
      readAll "(a;b)\n #|(|#;)\n#|;|#c]".toList =
        (([] : List Datum), some (.mismatchedCloser .square .round 0 21)) := by
  have hLex : lex "(a;b)\n#|;|#c]".toList =
      ⟨[⟨.opener .round, 0⟩, ⟨.atom ['a'], 1⟩, ⟨.atom ['c'], 11⟩, ⟨.closer .square, 12⟩],
        none⟩ := by decide +kernel
  have hRead : readAll "(a;b)\n#|;|#c]".toList =
      (([] : List Datum), some (.mismatchedCloser .square .round 0 12)) := by decide +kernel
  have hCut : IsCut "(a;b)\n".toList "#|;|#c]".toList := by
    have hLine : '\n' ∉ ['b', ')'] := by decide
    have hAtom : IsAtom ['a'] := ⟨by simp, List.forall_mem_singleton.2 rfl, by simp⟩
    have hEnds : EndsAtom (';' :: ['b', ')'] ++ ['\n'] ++ [] ++ "#|;|#c]".toList) := by
      rintro c ⟨⟩
      rfl
    have hComment := IsCut.piece (.lineComment hLine) (.start "#|;|#c]".toList)
    exact .piece (.opening .round) (.piece (.atom hAtom hEnds) hComment)
  have hLayout : Layout " #|(|#;)\n".toList := by
    have hBlock : ClosesComments 1 ['(', '|', '#'] :=
      .other (by decide) (by decide) (.closing .done)
    have hLine : '\n' ∉ [')'] := by decide
    exact .blank rfl (.blockComment hBlock (.lineComment hLine .nil))
  obtain ⟨hTokens, hForms⟩ := @readAll_insert_layout Empty _ _ 6
    (congrArg TokenStream.unclosedComment hLex) (by decide) hCut.not_insideAtom
    hCut.not_insideComment hLayout ⟨' ', rfl, rfl⟩
  rw [hLex] at hTokens
  rw [hRead] at hForms
  exact ⟨hTokens, hForms⟩

end Lisp
