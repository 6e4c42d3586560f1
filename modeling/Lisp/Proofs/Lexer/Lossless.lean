import Lisp.Proofs.Lexer.Piece
import Lisp.Reader.Stream

/-! The tokens of a text, the layout around them and the fault at its end account for every
character of it. Main statement: the lexer finds the one division of the text into layout and
whole tokens, and its one fault is a block comment without its end. -/

namespace Lisp

theorem Layout.append {space space' : Text} (hLayout : Layout space) (hLayout' : Layout space') :
    Layout (space ++ space') := by
  induction hLayout with
  | nil => exact hLayout'
  | blank hBlank more ih => exact .blank hBlank ih
  | lineComment hLine more ih =>
      rw [List.append_assoc]
      exact .lineComment hLine ih
  | blockComment hBlock more ih =>
      rw [List.append_assoc]
      exact .blockComment hBlock ih

theorem Layout.append_final {space rest : Text} (hLayout : Layout space)
    (hFinal : FinalLayout rest) : FinalLayout (space ++ rest) := by
  rcases hFinal with hRest | ⟨before, comment, hBefore, hLine, rfl⟩
  · exact .inl (hLayout.append hRest)
  · exact .inr ⟨space ++ before, comment, hLayout.append hBefore, hLine, by simp⟩

/-- The offset at which the text of a token ends. -/
def Token.stop (t : Token) : Nat := t.offset + t.text.length

namespace TokenStream

/-- The offset at which the last of the tokens ends, or `start` if there are none. -/
def stopAfter (start : Nat) : List Token → Nat
  | [] => start
  | t :: rest => stopAfter t.stop rest

/-- What is left of a stream after so many tokens have been asked for. -/
def advanced : Nat → TokenStream → TokenStream
  | 0, s => s
  | count + 1, s => advanced count s.advance.2

end TokenStream

/-- The text begins at this offset, and the tokens divide it. There is layout before, between
and after them, and each of them is whole. If there is a fault, a block comment without its end
begins there, with layout between it and the last token. -/
inductive Divides : Nat → Text → TokenStream → Prop where
  | final {offset : Nat} {rest : Text} (hRest : FinalLayout rest) : Divides offset rest ⟨[], none⟩
  | openComment {offset : Nat} {gap body : Text} (hGap : Layout gap) (hOpen : NeverCloses body) :
      Divides offset (gap ++ '#' :: '|' :: body) ⟨[], some (offset + gap.length)⟩
  | token {offset : Nat} {gap rest : Text} {t : Token} {stream : TokenStream} (hGap : Layout gap)
      (hOffset : t.offset = offset + gap.length) (hToken : IsPiece rest t.text (some t.kind))
      (more : Divides t.stop rest stream) :
      Divides offset (gap ++ (t.text ++ rest)) (stream.cons t)

namespace Divides

variable {offset : Nat} {s : Text} {stream : TokenStream}

/-- A text is divided only as the lexer divides it. -/
theorem lexFrom_eq (hDivides : Divides offset s stream) : Lexer.lexFrom offset s = stream := by
  induction hDivides with
  | @final offset rest hRest =>
      rcases hRest with hLayout | ⟨before, comment, hBefore, hLine, rfl⟩
      · have hNothing := Lexer.lexFrom_append_of_layout hLayout offset []
        rwa [List.append_nil, Lexer.lexFrom_nil] at hNothing
      · rw [Lexer.lexFrom_append_of_layout hBefore, Lexer.lexFrom_lastLine hLine]
  | openComment hGap hOpen =>
      rw [Lexer.lexFrom_append_of_layout hGap, Lexer.lexFrom_openComment hOpen]
  | token hGap hOffset hToken more ih =>
      rw [Lexer.lexFrom_append_of_layout hGap, hToken.lexFrom_token, ← hOffset]
      exact congrArg (TokenStream.cons _) ih

/-- Layout in front of a divided text. -/
theorem layout_append {space : Text} (hLayout : Layout space)
    (hDivides : Divides (offset + space.length) s stream) : Divides offset (space ++ s) stream := by
  cases hDivides with
  | final hRest => exact .final (hLayout.append_final hRest)
  | openComment hGap hOpen =>
      rw [← List.append_assoc, Nat.add_assoc, ← List.length_append]
      exact .openComment (hLayout.append hGap) hOpen
  | token hGap hOffset hToken more =>
      rw [← List.append_assoc]
      refine .token (hLayout.append hGap) ?_ hToken more
      rw [hOffset, List.length_append, Nat.add_assoc]

/-- The lexer divides every text. -/
theorem of_lexFrom (offset : Nat) (s : Text) : Divides offset s (Lexer.lexFrom offset s) := by
  induction s using piece_induction generalizing offset with
  | nil =>
      rw [Lexer.lexFrom_nil]
      exact .final (.inl .nil)
  | lastLine comment hLine =>
      rw [Lexer.lexFrom_lastLine hLine]
      exact .final (.inr ⟨[], comment, .nil, hLine, rfl⟩)
  | openComment body hOpen =>
      rw [Lexer.lexFrom_openComment hOpen]
      exact .openComment .nil hOpen
  | piece piece rest kind hPiece ih =>
      cases kind with
      | none =>
          rw [hPiece.lexFrom_layout]
          exact layout_append hPiece.layout (ih _)
      | some k =>
          rw [hPiece.lexFrom_token]
          obtain rfl := hPiece.text_eq offset
          exact .token .nil rfl hPiece (ih _)

theorem iff_lexFrom : Divides offset s stream ↔ Lexer.lexFrom offset s = stream :=
  ⟨lexFrom_eq, fun hLex => hLex ▸ of_lexFrom offset s⟩

/-- Every token stands in the text. -/
theorem exists_append_of_mem (hDivides : Divides offset s stream) {t : Token}
    (hMem : t ∈ stream.tokens) :
    ∃ before after, s = before ++ (t.text ++ after) ∧ t.offset = offset + before.length ∧
      IsPiece after t.text (some t.kind) := by
  induction hDivides with
  | final | openComment => cases hMem
  | @token offset gap rest first stream hGap hOffset hToken more ih =>
      rcases List.mem_cons.1 hMem with rfl | hMem
      · exact ⟨gap, rest, rfl, hOffset, hToken⟩
      · obtain ⟨before, after, rfl, hBefore, hPiece⟩ := ih hMem
        refine ⟨gap ++ (first.text ++ before), after, by simp, ?_, hPiece⟩
        rw [hBefore, Token.stop, hOffset]
        simp only [List.length_append]
        omega

/-- Every token is the text at its offset, and goes on as far as it can. -/
theorem extract_eq_text (hDivides : Divides 0 s stream) {t : Token} (hMem : t ∈ stream.tokens) :
    t.text ≠ [] ∧ s.extract t.offset t.stop = t.text ∧
      ∀ atom, t.kind = .atom atom → IsAtom atom ∧ EndsAtom (s.drop t.stop) := by
  obtain ⟨before, after, hText, hOffset, hPiece⟩ := hDivides.exists_append_of_mem hMem
  rw [Nat.zero_add] at hOffset
  have hAfter : s.drop t.stop = after := by
    rw [Token.stop, hOffset, hText, List.drop_length_add_append, List.drop_left]
  refine ⟨List.ne_nil_of_length_pos hPiece.length_pos, ?_, fun atom hKind => ?_⟩
  · rw [List.extract_eq_take_drop, Token.stop, Nat.add_sub_cancel_left, hOffset, hText,
      List.drop_left, List.take_left]
  · rw [hKind] at hPiece
    rw [hAfter]
    exact hPiece.isAtom

/-- The tokens stand in order, and no two of them overlap. -/
theorem pairwise (hDivides : Divides offset s stream) :
    stream.tokens.Pairwise (fun t u => t.stop ≤ u.offset) := by
  induction hDivides with
  | final | openComment => exact .nil
  | token hGap hOffset hToken more ih =>
      refine .cons (fun u hMem => ?_) ih
      obtain ⟨before, after, -, hBefore, -⟩ := more.exists_append_of_mem hMem
      omega

/-- After the last token there is what is left to be divided. -/
theorem after_tokens (hDivides : Divides offset s stream) :
    ∃ before after, s = before ++ after ∧
      TokenStream.stopAfter offset stream.tokens = offset + before.length ∧
      Divides (offset + before.length) after ⟨[], stream.unclosedComment⟩ := by
  induction hDivides with
  | final hRest => exact ⟨[], _, rfl, rfl, .final hRest⟩
  | openComment hGap hOpen => exact ⟨[], _, rfl, rfl, .openComment hGap hOpen⟩
  | @token offset gap rest t stream hGap hOffset hToken more ih =>
      obtain ⟨before, after, rfl, hStop, hAfter⟩ := ih
      have hLength : offset + (gap ++ (t.text ++ before)).length = t.stop + before.length := by
        rw [Token.stop, hOffset]
        simp only [List.length_append]
        omega
      refine ⟨gap ++ (t.text ++ before), after, by simp, ?_, ?_⟩
      · exact hStop.trans hLength.symm
      · rw [hLength]
        exact hAfter

end Divides

/-- A text has no token and an open comment exactly if there is only layout in front of the
comment. -/
theorem Lexer.lexFrom_eq_openComment_iff {offset position : Nat} {s : Text} :
    lexFrom offset s = ⟨[], some position⟩ ↔
      ∃ gap body, s = gap ++ '#' :: '|' :: body ∧ Layout gap ∧ NeverCloses body ∧
        position = offset + gap.length := by
  rw [← Divides.iff_lexFrom]
  constructor
  · intro hDivides
    generalize hStream : (⟨[], some position⟩ : TokenStream) = stream at hDivides
    cases hDivides with
    | final hRest => cases hStream
    | openComment hGap hOpen =>
        cases hStream
        exact ⟨_, _, rfl, hGap, hOpen, rfl⟩
    | token hGap hOffset hToken more => cases hStream
  · rintro ⟨gap, body, rfl, hGap, hOpen, rfl⟩
    exact .openComment hGap hOpen

/-- A comment is open at the end of a text exactly if one without its end begins behind the last
token and the layout after it. -/
theorem unclosedComment_lex_iff {source : Text} {position : Nat} :
    (lex source).unclosedComment = some position ↔ ∃ gap body,
      source.drop (TokenStream.stopAfter 0 (lex source).tokens) = gap ++ '#' :: '|' :: body ∧
        Layout gap ∧ NeverCloses body ∧
        position = TokenStream.stopAfter 0 (lex source).tokens + gap.length := by
  obtain ⟨before, after, hSource, hStop, hRest⟩ := (Divides.of_lexFrom 0 source).after_tokens
  rw [Nat.zero_add, ← lex] at hStop hRest
  have hAfter : source.drop before.length = after := by rw [hSource, List.drop_left]
  rw [hStop, hAfter, ← Lexer.lexFrom_eq_openComment_iff, hRest.lexFrom_eq]
  simp

namespace TokenStream

theorem advanced_empty (count : Nat) : advanced count ⟨[], none⟩ = ⟨[], none⟩ := by
  induction count with
  | zero => rfl
  | succ count ih => exact ih

/-- Asking for tokens fails only where there are no more of them and a comment is open. -/
theorem advance_advanced_eq_error_iff {tokens : List Token} {unclosedComment : Option Nat}
    {count : Nat} {err : ReadError} :
    (advanced count ⟨tokens, unclosedComment⟩).advance.1 = .error err ↔
      count = tokens.length ∧ ∃ position, unclosedComment = some position ∧
        err = .unclosedComment position := by
  induction count generalizing tokens with
  | zero =>
      cases tokens with
      | nil => cases unclosedComment <;> simp [advanced, advance, eq_comm]
      | cons t rest => simp [advanced, advance]
  | succ count ih =>
      cases tokens with
      | nil =>
          -- The fault is gone once it has been reported.
          have hEmpty : advanced (count + 1) ⟨[], unclosedComment⟩ = ⟨[], none⟩ := by
            cases unclosedComment <;> exact advanced_empty count
          rw [hEmpty]
          simp [advance]
      | cons t rest =>
          rw [List.length_cons, Nat.add_left_inj]
          exact ih

end TokenStream

/-- The lexer divides every text into layout and whole tokens, and in one way only. Each token
is the text at its offset, they stand in order without overlapping, and an atom goes on as far
as it can. Asking for tokens fails only after the last one, and only if, behind layout, there is
a block comment that has no end. -/
theorem lex_lossless (source : Text) :
    (∀ t ∈ (lex source).tokens, t.text ≠ [] ∧ source.extract t.offset t.stop = t.text ∧
      ∀ s, t.kind = .atom s → IsAtom s ∧ EndsAtom (source.drop t.stop)) ∧
    (lex source).tokens.Pairwise (fun t u => t.stop ≤ u.offset) ∧
    (∀ stream, lex source = stream ↔ Divides 0 source stream) ∧
    (∀ count err, ((lex source).advanced count).advance.1 = .error err ↔
      count = (lex source).tokens.length ∧ ∃ gap body,
        source.drop (TokenStream.stopAfter 0 (lex source).tokens) = gap ++ '#' :: '|' :: body ∧
        Layout gap ∧ NeverCloses body ∧
        err = .unclosedComment
          (TokenStream.stopAfter 0 (lex source).tokens + gap.length)) := by
  have hDivides : Divides 0 source (lex source) := .of_lexFrom 0 source
  refine ⟨fun t => hDivides.extract_eq_text, hDivides.pairwise,
    fun stream => Divides.iff_lexFrom.symm, fun count err => ?_⟩
  rw [TokenStream.advance_advanced_eq_error_iff]
  refine and_congr_right fun _ => ?_
  constructor
  · rintro ⟨position, hPosition, rfl⟩
    obtain ⟨gap, body, hText, hGap, hOpen, rfl⟩ := unclosedComment_lex_iff.1 hPosition
    exact ⟨gap, body, hText, hGap, hOpen, rfl⟩
  · rintro ⟨gap, body, hText, hGap, hOpen, rfl⟩
    exact ⟨_, unclosedComment_lex_iff.2 ⟨gap, body, hText, hGap, hOpen, rfl⟩, rfl⟩

theorem lex_lossless_open_after_comments :
    lex "(a#|b ;c\n#|d|# #|e".toList =
        ⟨[⟨.opener .round, 0⟩, ⟨.atom "a#|b".toList, 1⟩], some 15⟩ ∧
      ((lex "(a#|b ;c\n#|d|# #|e".toList).advanced 2).advance.1 =
        .error (.unclosedComment 15) := by
  have hLex : lex "(a#|b ;c\n#|d|# #|e".toList =
      ⟨[⟨.opener .round, 0⟩, ⟨.atom "a#|b".toList, 1⟩], some 15⟩ := by decide +kernel
  have hGap : Layout " ;c\n#|d|# ".toList := by
    have hBlock : ClosesComments 1 ['d', '|', '#'] :=
      .other (by decide) (by decide) (.closing .done)
    have hLine : '\n' ∉ ['c'] := by decide
    exact .blank rfl (.lineComment hLine (.blockComment hBlock (.blank rfl .nil)))
  have hOpen : NeverCloses ['e'] :=
    (Lexer.blockEnd?_eq_none_iff (s := ['e'])).1 (rfl : Lexer.blockEnd? 1 0 ['e'] = none)
  refine ⟨hLex, ((lex_lossless _).2.2.2 2 _).2 ?_⟩
  rw [hLex]
  exact ⟨rfl, _, _, rfl, hGap, hOpen, rfl⟩

end Lisp
