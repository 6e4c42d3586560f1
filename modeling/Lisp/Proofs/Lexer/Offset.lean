import Lisp.Proofs.Lexer.Relation

/-! Where the tokens of a text stand: inside the text, and each further on than those before
it. -/

namespace Lisp

namespace TokenStream

/-- The offsets of the tokens, and at last that of an open block comment. -/
def offsets (s : TokenStream) : List Nat := s.tokens.map Token.offset ++ s.unclosedComment.toList

@[simp] theorem offsets_cons (t : Token) (s : TokenStream) :
    (s.cons t).offsets = t.offset :: s.offsets := rfl

/-- The offsets increase, from `start` on and below `stop`. -/
structure StandsWithin (start stop : Nat) (s : TokenStream) : Prop where
  bounds : ∀ offset ∈ s.offsets, start ≤ offset ∧ offset < stop
  increasing : s.offsets.Pairwise (· < ·)

namespace StandsWithin

variable {start start' stop stop' : Nat} {s : TokenStream}

theorem mono (hWithin : StandsWithin start stop s) (hStart : start' ≤ start)
    (hStop : stop ≤ stop') : StandsWithin start' stop' s := by
  refine ⟨fun offset hMem => ?_, hWithin.increasing⟩
  obtain ⟨hLower, hUpper⟩ := hWithin.bounds offset hMem
  omega

/-- A token goes in front of those that stand further on. -/
theorem cons {t : Token} (hWithin : StandsWithin start stop s) (hOffset : t.offset < start)
    (hStop : start ≤ stop) : StandsWithin t.offset stop (s.cons t) := by
  constructor
  · refine List.forall_mem_cons.2 ⟨by omega, fun offset hMem => ?_⟩
    obtain ⟨hLower, hUpper⟩ := hWithin.bounds offset hMem
    omega
  · refine List.pairwise_cons.2 ⟨fun offset hMem => ?_, hWithin.increasing⟩
    exact hOffset.trans_le (hWithin.bounds offset hMem).1

end StandsWithin

end TokenStream

/-- The tokens of a text stand in order within it. -/
theorem Lexes.standsWithin {offset : Nat} {s : Text} {stream : TokenStream}
    (hLexes : Lexes offset s stream) : stream.StandsWithin offset (offset + s.length) := by
  induction hLexes with
  | nil offset => exact ⟨by simp [TokenStream.offsets], by simp [TokenStream.offsets]⟩
  | blank hBlank more ih => exact ih.mono (by omega) (by simp; omega)
  | lineComment hLine hEnds more ih => exact ih.mono (by omega) (by simp; omega)
  | blockComment hCloses more ih => exact ih.mono (by omega) (by simp; omega)
  | unclosedComment hOpen => exact ⟨by simp [TokenStream.offsets], by simp [TokenStream.offsets]⟩
  | opening b more ih => exact (ih.cons (by simp) (by omega)).mono (by rfl) (by simp; omega)
  | closing b more ih => exact (ih.cons (by simp) (by omega)).mono (by rfl) (by simp; omega)
  | @atom offset s rest stream hAtom hEnds more ih =>
      have hLength : 0 < s.length := List.length_pos_iff.2 hAtom.nonempty
      exact (ih.cons (by simpa using hLength) (by omega)).mono (by rfl) (by simp; omega)

theorem standsWithin_lex (source : Text) : (lex source).StandsWithin 0 source.length := by
  have hWithin := (lexes_lexFrom 0 source).standsWithin
  rwa [Nat.zero_add] at hWithin

end Lisp
