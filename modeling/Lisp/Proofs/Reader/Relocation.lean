import Lisp.Proofs.Reader.Sequence

/-! Reading where the tokens stand at other offsets. The reader never compares offsets and does
not count with them, so it reads the same expressions wherever the tokens stand, and an error
names the new offset of the same token. -/

namespace Lisp

variable {F : Type}

/-- The same token at another offset. -/
def Token.relocate (f : Nat → Nat) (t : Token) : Token := { t with offset := f t.offset }

/-- The same tokens at other offsets. -/
def TokenStream.relocate (f : Nat → Nat) (s : TokenStream) : TokenStream :=
  ⟨s.tokens.map (Token.relocate f), s.unclosedComment.map f⟩

/-- The same fault at other offsets. -/
def ReadError.relocate (f : Nat → Nat) : ReadError → ReadError
  | unclosedComment offset => unclosedComment (f offset)
  | unclosedList bracket offset => unclosedList bracket (f offset)
  | unexpectedCloser bracket offset => unexpectedCloser bracket (f offset)
  | mismatchedCloser bracket opener openedAt offset =>
    mismatchedCloser bracket opener (f openedAt) (f offset)
  | unexpectedDot offset => unexpectedDot (f offset)
  | missingTail offset => missingTail (f offset)
  | excessTail offset => excessTail (f offset)
  | longNumeral numeral offset => longNumeral numeral (f offset)
  | nothingToRead => nothingToRead
  | trailingInput offset => trailingInput (f offset)

/-- The same list, opened at another offset. -/
def OpenList.relocate (f : Nat → Nat) (l : OpenList F) : OpenList F :=
  { l with offset := f l.offset }

/-- The same step at other offsets. -/
def ReadStep.relocate (f : Nat → Nat) : ReadStep F → ReadStep F
  | more stack => more (stack.map (OpenList.relocate f))
  | done e => done e
  | fail err => fail (err.relocate f)

variable (f : Nat → Nat)

namespace OpenList

variable (l : OpenList F)

theorem add?_relocate (e : Expr F) : (l.relocate f).add? e = (l.add? e).map (relocate f) := by
  cases hTail : l.tail <;> simp [add?, relocate, hTail]

theorem addDot?_relocate : (l.relocate f).addDot? = l.addDot?.map (relocate f) := by
  cases hTail : l.tail <;> cases hItems : l.items <;> simp [addDot?, relocate, hTail, hItems]

theorem close?_relocate : (l.relocate f).close? = l.close? := rfl

end OpenList

namespace ReadStep

theorem place_relocate (stack : List (OpenList F)) (e : Expr F) (offset : Nat) :
    place (stack.map (OpenList.relocate f)) e (f offset) = (place stack e offset).relocate f := by
  cases stack with
  | nil => rfl
  | cons l outer =>
      simp only [List.map_cons, place, OpenList.add?_relocate]
      cases l.add? e <;> rfl

/-- A step does the same at any offset. -/
theorem ofToken_relocate (stack : List (OpenList F)) (t : Token) :
    ofToken (stack.map (OpenList.relocate f)) (t.relocate f) = (ofToken stack t).relocate f := by
  obtain ⟨kind, offset⟩ := t
  cases kind with
  | opener b => rfl
  | closer b =>
      cases stack with
      | nil => rfl
      | cons l outer =>
          have hBracket : (l.relocate f).bracket = l.bracket := rfl
          simp only [ofToken, Token.relocate, List.map_cons, hBracket, OpenList.close?_relocate]
          split
          · cases l.close? with
            | none => rfl
            | some e => exact place_relocate f outer e offset
          · rfl
  | atom s =>
      by_cases hDot : s = ['.']
      · subst hDot
        cases stack with
        | nil => rfl
        | cons l outer =>
            simp only [ofToken, Token.relocate, List.map_cons, if_true, OpenList.addDot?_relocate]
            cases l.addDot? <;> rfl
      · simp only [ofToken, Token.relocate, hDot, if_false]
        cases (readAtom s : Except LongNumeral (Expr F)) with
        | ok e => exact place_relocate f stack e offset
        | error numeral => rfl

end ReadStep

namespace TokenStream

/-- The machine does the same at any offset, and names the offsets where the tokens stand. -/
theorem nextWithin_relocate (unclosedComment : Option Nat) (stack : List (OpenList F))
    (tokens : List Token) :
    nextWithin (unclosedComment.map f) (stack.map (OpenList.relocate f))
        (tokens.map (Token.relocate f)) =
      ((nextWithin unclosedComment stack tokens).1.mapError (ReadError.relocate f),
        (nextWithin unclosedComment stack tokens).2.relocate f) := by
  induction tokens generalizing stack with
  | nil =>
      cases unclosedComment <;> cases stack <;> rfl
  | cons t rest ih =>
      rw [List.map_cons, nextWithin_cons, nextWithin_cons, ReadStep.ofToken_relocate]
      cases ReadStep.ofToken stack t with
      | more stack' => exact ih stack'
      | done e => rfl
      | fail err => rfl

theorem next_relocate (s : TokenStream) :
    (next (s.relocate f) : Except ReadError (Option (Expr F)) × TokenStream) =
      ((next s).1.mapError (ReadError.relocate f), (next (F := F) s).2.relocate f) :=
  nextWithin_relocate f s.unclosedComment [] s.tokens

/-- The same expressions are read, and the same fault ends them. -/
theorem all_relocate {s : TokenStream} {es : List (Expr F)} {err : Option ReadError}
    (hAll : s.all = (es, err)) : (s.relocate f).all = (es, err.map (ReadError.relocate f)) := by
  induction es generalizing s with
  | nil =>
      apply all_of_next_lastAnswer
      rw [next_relocate, next_of_all_nil hAll]
      cases err <;> rfl
  | cons e es ih =>
      obtain ⟨later, hNext, hLater⟩ := next_of_all_cons hAll
      refine all_of_next_some ?_ (ih hLater)
      rw [next_relocate, hNext]
      rfl

end TokenStream

end Lisp
