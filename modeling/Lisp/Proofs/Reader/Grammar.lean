import Lisp.Reader.Grammar
import Lisp.Reader.Stream
import Mathlib.Data.Set.Subsingleton

/-! The stack of open lists reads exactly what the grammar derives. The invariant is that
the stack accounts for every token read so far. A derivation in turn runs on any stack and in
front of any tokens, which is more than the statement about whole expressions needs. -/

namespace Lisp

variable {F : Type}

/-- The tokens of a list that is not closed yet: its bracket, its items, and its dot and its
tail as far as they are read. -/
inductive OpenList.Derives : List Token → OpenList F → Prop where
  | items {b : Bracket} {offset : Nat} {tokens : List Token} {items : List (Expr F)}
      (hItems : DerivesAll tokens items.reverse) :
      OpenList.Derives (⟨.opener b, offset⟩ :: tokens) ⟨b, offset, items, .absent⟩
  | dot {b : Bracket} {offset dotAt : Nat} {tokens : List Token} {items : List (Expr F)}
      (hItems : DerivesAll tokens items.reverse) (hSome : items ≠ []) :
      OpenList.Derives (⟨.opener b, offset⟩ :: tokens ++ [⟨.atom ['.'], dotAt⟩])
        ⟨b, offset, items, .expected⟩
  | tail {b : Bracket} {offset dotAt : Nat} {tokens tailTokens : List Token}
      {items : List (Expr F)} {tail : Expr F} (hItems : DerivesAll tokens items.reverse)
      (hSome : items ≠ []) (hTail : Lisp.Derives tailTokens tail) :
      OpenList.Derives (⟨.opener b, offset⟩ :: tokens ++ ⟨.atom ['.'], dotAt⟩ :: tailTokens)
        ⟨b, offset, items, .given tail⟩

/-- The tokens read so far and the lists that they leave open, the innermost first. -/
inductive StackDerives : List Token → List (OpenList F) → Prop where
  | nil : StackDerives [] []
  | cons {outerTokens tokens : List Token} {l : OpenList F} {outer : List (OpenList F)}
      (hOuter : StackDerives outerTokens outer) (hInner : l.Derives tokens) :
      StackDerives (outerTokens ++ tokens) (l :: outer)

/-- What a step leads to fits the tokens read. A fault fits any tokens. -/
def ReadStep.Derives (tokens : List Token) : ReadStep F → Prop
  | more stack => StackDerives tokens stack
  | done e => Lisp.Derives tokens e
  | fail _ => True

theorem Derives.single {tokens : List Token} {e : Expr F} (hDerives : Derives tokens e) :
    DerivesAll tokens [e] := by
  simpa using DerivesAll.cons hDerives .nil

namespace OpenList.Derives

variable {tokens more : List Token} {l l' : OpenList F} {e : Expr F}

theorem add? (hList : l.Derives tokens) (hMore : Lisp.Derives more e)
    (hAdd : l.add? e = some l') : l'.Derives (tokens ++ more) := by
  cases hList with
  | items hItems =>
      cases hAdd
      refine .items ?_
      simpa using hItems.append hMore.single
  | dot hItems hSome =>
      cases hAdd
      simpa using tail hItems hSome hMore
  | tail hItems hSome hTail => cases hAdd

theorem addDot? (hList : l.Derives tokens) (offset : Nat) (hAdd : l.addDot? = some l') :
    l'.Derives (tokens ++ [⟨.atom ['.'], offset⟩]) := by
  cases hList with
  | @items b openedAt tokens items hItems =>
      cases items with
      | nil => cases hAdd
      | cons e items =>
          cases hAdd
          exact .dot hItems (by simp)
  | dot hItems hSome => cases hAdd
  | tail hItems hSome hTail => cases hAdd

theorem close? (hList : l.Derives tokens) (offset : Nat) (hClose : l.close? = some e) :
    Lisp.Derives (tokens ++ [⟨.closer l.bracket, offset⟩]) e := by
  cases hList with
  | items hItems =>
      cases hClose
      exact .list hItems
  | dot hItems hSome => cases hClose
  | tail hItems hSome hTail =>
      cases hClose
      exact .dotted hItems (by simpa using hSome) hTail

end OpenList.Derives

/-- A dot is taken where no dot is and some item is. -/
theorem OpenList.addDot?_of_items {l : OpenList F} (hAbsent : l.tail = .absent)
    (hSome : l.items ≠ []) : l.addDot? = some { l with tail := .expected } := by
  obtain ⟨first, more, hItems⟩ := List.exists_cons_of_ne_nil hSome
  simp [addDot?, hAbsent, hItems]

namespace ReadStep

variable {tokens used : List Token} {stack : List (OpenList F)}

theorem derives_place {e : Expr F} (hStack : StackDerives tokens stack)
    (hUsed : Lisp.Derives used e) (offset : Nat) :
    (place stack e offset).Derives (tokens ++ used) := by
  cases hStack with
  | nil => exact hUsed
  | @cons outerTokens inner l outer hOuter hInner =>
      cases hAdd : l.add? e with
      | none => simp [place, hAdd, ReadStep.Derives]
      | some l' =>
          simp only [place, hAdd, List.append_assoc]
          exact .cons hOuter (hInner.add? hUsed hAdd)

/-- One token keeps the account of what has been read. -/
theorem derives_ofToken (hStack : StackDerives tokens stack) (t : Token) :
    (ofToken stack t).Derives (tokens ++ [t]) := by
  obtain ⟨kind, offset⟩ := t
  cases kind with
  | opener b => exact .cons hStack (.items .nil)
  | closer b =>
      cases hStack with
      | nil => trivial
      | @cons outerTokens inner l outer hOuter hInner =>
          by_cases hBracket : l.bracket = b
          · cases hClose : l.close? with
            | none => simp [ofToken, hBracket, hClose, ReadStep.Derives]
            | some e =>
                have hList := hInner.close? offset hClose
                simp only [ofToken, hBracket, hClose, if_true, List.append_assoc] at hList ⊢
                exact derives_place hOuter hList offset
          · simp [ofToken, hBracket, ReadStep.Derives]
  | atom s =>
      by_cases hDot : s = ['.']
      · subst hDot
        cases hStack with
        | nil => trivial
        | @cons outerTokens inner l outer hOuter hInner =>
            cases hAdd : l.addDot? with
            | none => simp [ofToken, hAdd, ReadStep.Derives]
            | some l' =>
                simp only [ofToken, hAdd, if_true, List.append_assoc]
                exact .cons hOuter (hInner.addDot? offset hAdd)
      · cases hRead : (readAtom s : Except LongNumeral (Expr F)) with
        | error numeral => simp [ofToken, hDot, hRead, ReadStep.Derives]
        | ok e =>
            simp only [ofToken, hDot, hRead, if_false]
            exact derives_place hStack (.atom hDot hRead) offset

/-- Carry on after a step, where these tokens are still to come. -/
def resume (unclosedComment : Option Nat) (rest : List Token) :
    ReadStep F → Except ReadError (Option (Expr F)) × TokenStream
  | more stack => TokenStream.nextWithin unclosedComment stack rest
  | done e => (.ok (some e), ⟨rest, unclosedComment⟩)
  | fail err => (.error err, ⟨rest, unclosedComment⟩)

section

variable (unclosedComment : Option Nat) (rest : List Token)

@[simp] theorem resume_more (stack : List (OpenList F)) :
    (more stack).resume unclosedComment rest =
      TokenStream.nextWithin unclosedComment stack rest := rfl

@[simp] theorem resume_done (e : Expr F) :
    (done e).resume unclosedComment rest = (.ok (some e), ⟨rest, unclosedComment⟩) := rfl

@[simp] theorem resume_fail (err : ReadError) :
    (fail err : ReadStep F).resume unclosedComment rest =
      (.error err, ⟨rest, unclosedComment⟩) := rfl

end

end ReadStep

namespace TokenStream

variable {unclosedComment : Option Nat} {tokens read used rest : List Token}
  {stack : List (OpenList F)} {e : Expr F}

theorem nextWithin_cons (unclosedComment : Option Nat) (stack : List (OpenList F)) (t : Token)
    (rest : List Token) :
    nextWithin unclosedComment stack (t :: rest) =
      (ReadStep.ofToken stack t).resume unclosedComment rest := by
  rw [nextWithin]
  cases ReadStep.ofToken stack t <;> rfl

/-- An expression that is read is derived by the tokens behind the stack and those that were
used, and no others are taken. -/
theorem derives_of_nextWithin {s : TokenStream} (hStack : StackDerives read stack)
    (hNext : nextWithin unclosedComment stack tokens = (.ok (some e), s)) :
    ∃ used, tokens = used ++ s.tokens ∧ s.unclosedComment = unclosedComment ∧
      Derives (read ++ used) e := by
  induction tokens generalizing read stack with
  | nil =>
      unfold nextWithin endOfInput at hNext
      split at hNext <;> simp at hNext
  | cons t rest ih =>
      have hStep := ReadStep.derives_ofToken hStack t
      rw [nextWithin_cons] at hNext
      cases hOf : ReadStep.ofToken stack t with
      | more stack' =>
          rw [hOf] at hNext hStep
          obtain ⟨used, hUsed, hComment, hDerives⟩ := ih hStep hNext
          refine ⟨t :: used, by rw [hUsed, List.cons_append], hComment, ?_⟩
          simpa using hDerives
      | done e' =>
          rw [hOf] at hNext hStep
          simp only [ReadStep.resume_done, Prod.mk.injEq, Except.ok.injEq, Option.some.injEq]
            at hNext
          obtain ⟨rfl, rfl⟩ := hNext
          exact ⟨[t], rfl, rfl, hStep⟩
      | fail err =>
          rw [hOf] at hNext
          simp at hNext

end TokenStream

mutual

/-- The tokens of an expression put it in its place, whatever lists are open and whatever
tokens follow. -/
theorem Derives.nextWithin {tokens : List Token} {e : Expr F} (hDerives : Derives tokens e) :
    ∃ offset, ∀ unclosedComment stack rest,
      TokenStream.nextWithin unclosedComment stack (tokens ++ rest) =
        (ReadStep.place stack e offset).resume unclosedComment rest := by
  match hDerives with
  | @Derives.atom _ s offset e hDot hRead =>
      refine ⟨offset, fun unclosedComment stack rest => ?_⟩
      rw [List.singleton_append, TokenStream.nextWithin_cons]
      simp [ReadStep.ofToken, hDot, hRead]
  | @Derives.list _ b openedAt closedAt tokens items hItems =>
      refine ⟨closedAt, fun unclosedComment stack rest => ?_⟩
      simp only [List.append_assoc, List.cons_append, TokenStream.nextWithin_cons,
        ReadStep.ofToken, ReadStep.resume_more]
      rw [hItems.nextWithin rfl]
      simp [TokenStream.nextWithin_cons, ReadStep.ofToken, OpenList.close?]
  | @Derives.dotted _ b openedAt dotAt closedAt tokens tailTokens items tail hItems hSome hTail =>
      obtain ⟨tailAt, hTailRun⟩ := hTail.nextWithin
      have hDot := OpenList.addDot?_of_items
        (l := ⟨b, openedAt, items.reverse ++ [], .absent⟩) rfl (by simpa using hSome)
      refine ⟨closedAt, fun unclosedComment stack rest => ?_⟩
      simp only [List.append_assoc, List.cons_append, TokenStream.nextWithin_cons,
        ReadStep.ofToken, ReadStep.resume_more]
      rw [hItems.nextWithin rfl]
      simp only [TokenStream.nextWithin_cons, ReadStep.ofToken, hDot, if_true,
        ReadStep.resume_more]
      rw [hTailRun]
      simp [ReadStep.place, OpenList.add?, TokenStream.nextWithin_cons, ReadStep.ofToken,
        OpenList.close?]

/-- The tokens of some expressions add them to the innermost list. -/
theorem DerivesAll.nextWithin {tokens : List Token} {es : List (Expr F)}
    (hAll : DerivesAll tokens es) {unclosedComment : Option Nat} {l : OpenList F}
    {outer : List (OpenList F)} {rest : List Token} (hTail : l.tail = .absent) :
    TokenStream.nextWithin unclosedComment (l :: outer) (tokens ++ rest) =
      TokenStream.nextWithin unclosedComment ({ l with items := es.reverse ++ l.items } :: outer)
        rest := by
  match hAll with
  | .nil => rfl
  | @DerivesAll.cons _ tokens more e es hHead hRest =>
      obtain ⟨offset, hRun⟩ := hHead.nextWithin
      have hAdd : l.add? e = some { l with items := e :: l.items } := by
        simp [OpenList.add?, hTail]
      rw [List.append_assoc, hRun]
      simp only [ReadStep.place, hAdd, ReadStep.resume_more]
      rw [DerivesAll.nextWithin hRest (l := { l with items := e :: l.items }) hTail]
      simp

end

namespace TokenStream

/-- Reading an expression takes some tokens from the front and leaves the others exactly if
the grammar derives the expression from those tokens. -/
theorem next_eq_ok_some_iff (unclosedComment : Option Nat) (used rest : List Token)
    (e : Expr F) :
    next ⟨used ++ rest, unclosedComment⟩ = (.ok (some e), ⟨rest, unclosedComment⟩) ↔
      Derives used e := by
  constructor
  · intro hNext
    obtain ⟨taken, hTaken, -, hDerives⟩ := derives_of_nextWithin .nil hNext
    rw [List.append_cancel_right hTaken]
    exact hDerives
  · intro hDerives
    obtain ⟨offset, hRun⟩ := hDerives.nextWithin
    exact hRun unclosedComment [] rest

/-- There is no expression only where there is nothing to read. -/
theorem eq_nil_of_nextWithin {unclosedComment : Option Nat} {read tokens : List Token}
    {stack : List (OpenList F)} (hStack : StackDerives read stack)
    (hNext : (nextWithin unclosedComment stack tokens).1 = .ok none) :
    read ++ tokens = [] ∧ unclosedComment = none := by
  induction tokens generalizing read stack with
  | nil =>
      cases hStack with
      | nil => cases unclosedComment <;> simp_all [nextWithin, endOfInput]
      | cons hOuter hInner =>
          cases unclosedComment <;> simp [nextWithin, endOfInput] at hNext
  | cons t rest ih =>
      have hStep := ReadStep.derives_ofToken hStack t
      rw [nextWithin_cons] at hNext
      cases hOf : ReadStep.ofToken stack t with
      | more stack' =>
          rw [hOf] at hNext hStep
          obtain ⟨hNil, -⟩ := ih hStep hNext
          simp at hNil
      | done e => simp [hOf] at hNext
      | fail err => simp [hOf] at hNext

/-- No two derivations begin the same tokens. -/
theorem eq_of_derives_append {used rest used' rest' : List Token} {e e' : Expr F}
    (hTokens : used ++ rest = used' ++ rest') (hDerives : Derives used e)
    (hDerives' : Derives used' e') : used = used' ∧ e = e' := by
  have hNext := (next_eq_ok_some_iff none used rest e).2 hDerives
  have hNext' := (next_eq_ok_some_iff none used' rest' e').2 hDerives'
  rw [hTokens, hNext'] at hNext
  simp only [Prod.mk.injEq, Except.ok.injEq, Option.some.injEq, TokenStream.mk.injEq,
    and_true] at hNext
  obtain ⟨rfl, rfl⟩ := hNext
  exact ⟨List.append_cancel_right hTokens, rfl⟩

/-- Reading is sound and complete for the grammar: it takes the first `k` tokens as an
expression exactly if the grammar derives the expression from them. At most one number of tokens
and one expression are possible, and there is none to read only if there are no tokens. -/
theorem next_eq_iff_derives (tokens : List Token) :
    (∀ (e : Expr F) (k : Nat),
      (k ≤ tokens.length ∧
          next ⟨tokens, none⟩ = (.ok (some e), ⟨tokens.drop k, none⟩)) ↔
        (k ≤ tokens.length ∧ Derives (tokens.take k) e)) ∧
    {p : Nat × Expr F | p.1 ≤ tokens.length ∧ Derives (tokens.take p.1) p.2}.Subsingleton ∧
    ((next ⟨tokens, none⟩ : Except ReadError (Option (Expr F)) × TokenStream).1 = .ok none ↔
      tokens = []) := by
  refine ⟨fun e k => and_congr_right fun _ => ?_, ?_, ?_⟩
  · have hIff := next_eq_ok_some_iff none (tokens.take k) (tokens.drop k) e
    rwa [List.take_append_drop] at hIff
  · rintro ⟨k, e⟩ ⟨hLe, hDerives⟩ ⟨k', e'⟩ ⟨hLe', hDerives'⟩
    obtain ⟨hTake, rfl⟩ := eq_of_derives_append
      ((List.take_append_drop k tokens).trans (List.take_append_drop k' tokens).symm)
      hDerives hDerives'
    have hLength := congrArg List.length hTake
    simp only [List.length_take] at hLength hLe hLe'
    rw [show k = k' by omega]
  · constructor
    · intro hNext
      exact (eq_nil_of_nextWithin .nil hNext).1
    · rintro rfl
      rfl

end TokenStream

end Lisp
