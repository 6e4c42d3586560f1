import Lisp.Reader.Atom

/-! The grammar of expressions over tokens. It says which tokens stand for which expression
and has no order of reading, no stack and no faults. -/

namespace Lisp

variable {F : Type}

mutual

/-- The tokens are one expression: an atom other than the dot, a list between brackets of one
kind, or a list whose last expression stands alone behind a dot. -/
inductive Derives : List Token → Expr F → Prop where
  | atom {s : Text} {offset : Nat} {e : Expr F} (hDot : s ≠ ['.'])
      (hRead : readAtom s = .ok e) : Derives [⟨.atom s, offset⟩] e
  | list {b : Bracket} {openedAt closedAt : Nat} {tokens : List Token} {items : List (Expr F)}
      (hItems : DerivesAll tokens items) :
      Derives (⟨.opener b, openedAt⟩ :: tokens ++ [⟨.closer b, closedAt⟩]) (.ofList items)
  | dotted {b : Bracket} {openedAt dotAt closedAt : Nat} {tokens tailTokens : List Token}
      {items : List (Expr F)} {tail : Expr F} (hItems : DerivesAll tokens items)
      (hSome : items ≠ []) (hTail : Derives tailTokens tail) :
      Derives
        (⟨.opener b, openedAt⟩ :: tokens ++ ⟨.atom ['.'], dotAt⟩ :: tailTokens ++
          [⟨.closer b, closedAt⟩])
        (.ofList items tail)

/-- The tokens are these expressions, one after the other. -/
inductive DerivesAll : List Token → List (Expr F) → Prop where
  | nil : DerivesAll [] []
  | cons {tokens rest : List Token} {e : Expr F} {es : List (Expr F)} (hHead : Derives tokens e)
      (hRest : DerivesAll rest es) : DerivesAll (tokens ++ rest) (e :: es)

end

theorem Derives.ne_nil {tokens : List Token} {e : Expr F} (hDerives : Derives tokens e) :
    tokens ≠ [] := by
  cases hDerives <;> simp

theorem DerivesAll.append {tokens rest : List Token} {es fs : List (Expr F)}
    (hFirst : DerivesAll tokens es) (hRest : DerivesAll rest fs) :
    DerivesAll (tokens ++ rest) (es ++ fs) := by
  induction es generalizing tokens with
  | nil => cases hFirst; exact hRest
  | cons e es ih =>
    cases hFirst with
    | cons hHead hMore => rw [List.append_assoc]; exact .cons hHead (ih hMore)

end Lisp
