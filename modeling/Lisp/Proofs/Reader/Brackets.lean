import Lisp.Proofs.Reader.Completion

/-! The brackets among tokens, matched with each other by nothing but the grammar of nesting. Main
statement: where reading stops for a lack of input, the bracket of the innermost open list is the
last one that no token closes. -/

namespace Lisp

variable {F : Type}

/-- Every bracket among these tokens is matched by another of them, of its own kind. -/
inductive Balanced : List Token → Prop where
  | nil : Balanced []
  | atom {s : Text} {offset : Nat} {rest : List Token} (hRest : Balanced rest) :
      Balanced (⟨.atom s, offset⟩ :: rest)
  | brackets {b : Bracket} {openedAt closedAt : Nat} {inside rest : List Token}
      (hInside : Balanced inside) (hRest : Balanced rest) :
      Balanced (⟨.opener b, openedAt⟩ :: inside ++ ⟨.closer b, closedAt⟩ :: rest)

/-- The bracket that opens at this offset is the innermost one that stays open: all brackets after
it match each other, and none of them closes it. -/
def StaysOpen (tokens : List Token) (b : Bracket) (offset : Nat) : Prop :=
  ∃ before after, tokens = before ++ ⟨.opener b, offset⟩ :: after ∧ Balanced after ∧
    ∀ inside c closedAt rest, Balanced inside → after ≠ inside ++ ⟨.closer c, closedAt⟩ :: rest

/-- How many brackets are open after these tokens, where so many are open before them. A bracket
that closes nothing has no answer. -/
def depthAfter? : (depth : Nat) → List Token → Option Nat
  | depth, [] => some depth
  | depth, ⟨.opener _, _⟩ :: rest => depthAfter? (depth + 1) rest
  | depth, ⟨.atom _, _⟩ :: rest => depthAfter? depth rest
  | 0, ⟨.closer _, _⟩ :: _ => none
  | depth + 1, ⟨.closer _, _⟩ :: rest => depthAfter? depth rest

namespace Balanced

variable {tokens rest : List Token}

theorem append (hTokens : Balanced tokens) (hRest : Balanced rest) :
    Balanced (tokens ++ rest) := by
  induction hTokens with
  | nil => exact hRest
  | atom hMore ih => exact .atom ih
  | brackets hInside hMore ihInside ih =>
      rw [List.append_assoc]
      exact .brackets hInside ih

/-- Balanced tokens leave the depth as it is. -/
theorem depthAfter?_append (hTokens : Balanced tokens) (depth : Nat) (rest : List Token) :
    depthAfter? depth (tokens ++ rest) = depthAfter? depth rest := by
  induction hTokens generalizing depth rest with
  | nil => rfl
  | atom hMore ih =>
      rw [List.cons_append, depthAfter?]
      exact ih depth rest
  | brackets hInside hMore ihInside ih =>
      rw [List.append_assoc, List.cons_append, List.cons_append, depthAfter?, ihInside, depthAfter?]
      exact ih depth rest

/-- No bracket of balanced tokens closes one before them. -/
theorem not_closes (hTokens : Balanced tokens) {inside : List Token} (hInside : Balanced inside)
    (c : Bracket) (closedAt : Nat) (rest : List Token) :
    tokens ≠ inside ++ ⟨.closer c, closedAt⟩ :: rest := by
  rintro rfl
  have hDepth := hTokens.depthAfter?_append 0 []
  rw [List.append_nil, hInside.depthAfter?_append] at hDepth
  cases hDepth

theorem staysOpen (hTokens : Balanced tokens) (before : List Token) (b : Bracket) (offset : Nat) :
    StaysOpen (before ++ ⟨.opener b, offset⟩ :: tokens) b offset :=
  ⟨before, tokens, rfl, hTokens, fun _ c closedAt rest hInside =>
    hTokens.not_closes hInside c closedAt rest⟩

end Balanced

mutual

/-- The brackets of an expression match each other. -/
theorem Derives.balanced {tokens : List Token} {e : Expr F} (hDerives : Derives tokens e) :
    Balanced tokens := by
  match hDerives with
  | .atom hDot hRead => exact .atom .nil
  | .list hItems => exact .brackets hItems.balanced .nil
  | @Derives.dotted _ b openedAt dotAt closedAt tokens tailTokens items tail hItems hSome hTail =>
      have hInside : Balanced (tokens ++ ⟨.atom ['.'], dotAt⟩ :: tailTokens) :=
        hItems.balanced.append (.atom hTail.balanced)
      simpa using Balanced.brackets hInside .nil

/-- The brackets of some expressions match each other. -/
theorem DerivesAll.balanced {tokens : List Token} {es : List (Expr F)}
    (hAll : DerivesAll tokens es) : Balanced tokens := by
  match hAll with
  | .nil => exact .nil
  | .cons hHead hRest => exact hHead.balanced.append hRest.balanced

end

/-- The tokens of an open list are its bracket and balanced tokens. -/
theorem OpenList.Derives.exists_balanced {tokens : List Token} {l : OpenList F}
    (hList : l.Derives tokens) :
    ∃ inside, tokens = ⟨.opener l.bracket, l.offset⟩ :: inside ∧ Balanced inside := by
  cases hList with
  | items hItems => exact ⟨_, rfl, hItems.balanced⟩
  | dot hItems hSome => exact ⟨_, rfl, hItems.balanced.append (.atom .nil)⟩
  | tail hItems hSome hTail => exact ⟨_, rfl, hItems.balanced.append (.atom hTail.balanced)⟩

namespace TokenStream

variable {unclosedComment : Option Nat} {read tokens : List Token} {stack stack' : List (OpenList F)}

/-- The lists that are open account for the tokens from some place on. -/
theorem exists_stackDerives_of_openAfter? (hStack : StackDerives read stack)
    (hOpen : openAfter? stack tokens = some stack') :
    ∃ earlier later, read ++ tokens = earlier ++ later ∧ StackDerives later stack' := by
  fun_induction openAfter? stack tokens generalizing read with
  | case1 stack =>
      cases hOpen
      exact ⟨[], read, by simp, hStack⟩
  | case2 stack t rest next hOf ih =>
      have hStep := ReadStep.derives_ofToken hStack t
      rw [hOf] at hStep
      obtain ⟨earlier, later, hTokens, hLater⟩ := ih hStep hOpen
      exact ⟨earlier, later, by simpa using hTokens, hLater⟩
  | case3 stack t rest e hOf ih =>
      -- An expression at the top level is complete, and the account begins again after it.
      obtain ⟨earlier, later, hTokens, hLater⟩ := ih .nil hOpen
      rw [List.nil_append] at hTokens
      exact ⟨read ++ t :: earlier, later, by simp [hTokens], hLater⟩
  | case4 => cases hOpen

/-- A lack of input is found after all tokens: inside a comment, or else inside the innermost of the
lists that they leave open. -/
theorem exists_openAfter?_of_faultWithin {err : ReadError}
    (hFault : faultWithin unclosedComment stack tokens = some err)
    (hIncomplete : err.isIncomplete = true) :
    ∃ stack', openAfter? stack tokens = some stack' ∧
      endOfInput stack' unclosedComment = .error err := by
  have hAll : ∀ err' ∈ faultWithin unclosedComment stack tokens, err'.isIncomplete = true := by
    simpa [hFault] using hIncomplete
  obtain ⟨stack', hOpen⟩ := Option.isSome_iff_exists.1 ((isSome_openAfter?_iff _).2 hAll)
  rw [faultWithin_of_openAfter?_eq_some hOpen, faultWithin] at hFault
  refine ⟨stack', hOpen, ?_⟩
  split at hFault <;> simp_all

/-- A list that is not closed is reported where the innermost bracket stands that stays open. -/
theorem staysOpen_of_faultWithin {b : Bracket} {offset : Nat}
    (hFault : faultWithin (F := F) unclosedComment [] tokens = some (.unclosedList b offset)) :
    StaysOpen tokens b offset := by
  obtain ⟨stack, hOpen, hEnd⟩ := exists_openAfter?_of_faultWithin hFault rfl
  obtain ⟨earlier, later, hTokens, hLater⟩ := exists_stackDerives_of_openAfter? .nil hOpen
  rw [List.nil_append] at hTokens
  cases hLater with
  | nil => cases unclosedComment <;> cases hEnd
  | @cons outerTokens inner l outer hOuter hInner =>
      obtain ⟨inside, rfl, hInside⟩ := hInner.exists_balanced
      cases unclosedComment with
      | some start => cases hEnd
      | none =>
          cases hEnd
          rw [hTokens, ← List.append_assoc]
          exact hInside.staysOpen _ _ _

end TokenStream

end Lisp
