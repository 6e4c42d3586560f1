import Lisp.Proofs.Reader.Sequence

/-! Reading a stream to its end in one pass over the tokens. What is read so far shows only in
the lists that are open, so tokens that are read without a fault hand over these lists and nothing
else to the tokens after them. -/

namespace Lisp

variable {F : Type}

namespace ReadStep

/-- What putting a complete expression in its place can lead to. -/
inductive Places (e : Expr F) (offset : Nat) : List (OpenList F) → ReadStep F → Prop where
  | top : Places e offset [] (done e)
  | added {l l' : OpenList F} {outer : List (OpenList F)} (hAdd : l.add? e = some l') :
      Places e offset (l :: outer) (more (l' :: outer))
  | excess {l : OpenList F} {outer : List (OpenList F)} (hAdd : l.add? e = none) :
      Places e offset (l :: outer) (fail (.excessTail offset))

/-- What reading a token at this offset can lead to. Nothing is said of which token does what. -/
inductive LeadsTo (offset : Nat) : List (OpenList F) → ReadStep F → Prop where
  | opened (b : Bracket) (stack : List (OpenList F)) :
      LeadsTo offset stack (more (⟨b, offset, [], .absent⟩ :: stack))
  | dotted {l l' : OpenList F} {outer : List (OpenList F)} (hAdd : l.addDot? = some l') :
      LeadsTo offset (l :: outer) (more (l' :: outer))
  | atom {e : Expr F} {stack : List (OpenList F)} {step : ReadStep F}
      (hPlaces : Places e offset stack step) : LeadsTo offset stack step
  | closed {l : OpenList F} {e : Expr F} {outer : List (OpenList F)} {step : ReadStep F}
      (hClose : l.close? = some e) (hPlaces : Places e offset outer step) :
      LeadsTo offset (l :: outer) step
  | fault {stack : List (OpenList F)} {err : ReadError} (hPosition : err.position = some offset)
      (hHard : err.isIncomplete = false) : LeadsTo offset stack (fail err)

theorem places_place (stack : List (OpenList F)) (e : Expr F) (offset : Nat) :
    Places e offset stack (place stack e offset) := by
  cases stack with
  | nil => exact .top
  | cons l outer =>
      rw [place]
      cases hAdd : l.add? e with
      | some l' => exact .added hAdd
      | none => exact .excess hAdd

theorem leadsTo_ofToken (stack : List (OpenList F)) (t : Token) :
    LeadsTo t.offset stack (ofToken stack t) := by
  obtain ⟨kind, offset⟩ := t
  cases kind with
  | opener b => exact .opened b stack
  | closer b =>
      cases stack with
      | nil => exact .fault rfl rfl
      | cons l outer =>
          simp only [ofToken]
          split
          · cases hClose : l.close? with
            | some e => exact .closed hClose (places_place outer e offset)
            | none => exact .fault rfl rfl
          · exact .fault rfl rfl
  | atom s =>
      simp only [ofToken]
      split
      · cases stack with
        | nil => exact .fault rfl rfl
        | cons l outer =>
            dsimp only
            cases hAdd : l.addDot? with
            | some l' => exact .dotted hAdd
            | none => exact .fault rfl rfl
      · cases (readAtom s : Except LongNumeral (Expr F)) with
        | ok e => exact .atom (places_place stack e offset)
        | error numeral => exact .fault rfl rfl

variable {e : Expr F} {offset : Nat} {stack : List (OpenList F)} {err : ReadError}

theorem Places.eq_excessTail (hPlaces : Places e offset stack (fail err)) :
    err = .excessTail offset := by
  cases hPlaces
  rfl

/-- A fault of a token is where the token is, and more input cannot mend it. -/
theorem LeadsTo.fault_inv (hLeads : LeadsTo offset stack (fail err)) :
    err.position = some offset ∧ err.isIncomplete = false := by
  cases hLeads with
  | atom hPlaces =>
      rw [hPlaces.eq_excessTail]
      exact ⟨rfl, rfl⟩
  | closed hClose hPlaces =>
      rw [hPlaces.eq_excessTail]
      exact ⟨rfl, rfl⟩
  | fault hPosition hHard => exact ⟨hPosition, hHard⟩

theorem ofToken_eq_fail {t : Token} (hOf : ofToken stack t = .fail err) :
    err.position = some t.offset ∧ err.isIncomplete = false :=
  (hOf ▸ leadsTo_ofToken stack t).fault_inv

end ReadStep

namespace TokenStream

/-- The fault with which reading all of these tokens ends, where these lists are open before
them. -/
def faultWithin (unclosedComment : Option Nat) (stack : List (OpenList F)) :
    List Token → Option ReadError
  | [] =>
    match endOfInput stack unclosedComment with
    | .error err => some err
    | .ok _ => none
  | t :: rest =>
    match ReadStep.ofToken stack t with
    | .more stack => faultWithin unclosedComment stack rest
    | .done _ => faultWithin unclosedComment [] rest
    | .fail err => some err

/-- The lists that are open after these tokens, where these are open before them. After a fault
there is nothing to say. -/
def openAfter? (stack : List (OpenList F)) : List Token → Option (List (OpenList F))
  | [] => some stack
  | t :: rest =>
    match ReadStep.ofToken stack t with
    | .more stack => openAfter? stack rest
    | .done _ => openAfter? [] rest
    | .fail _ => none

/-- The fault that an answer is, or else that of the tokens after an expression. -/
def faultFrom (F : Type) : Except ReadError (Option (Expr F)) × TokenStream → Option ReadError
  | (.error err, _) => some err
  | (.ok none, _) => none
  | (.ok (some _), s) => faultWithin (F := F) s.unclosedComment [] s.tokens

variable {unclosedComment : Option Nat} {stack : List (OpenList F)} {tokens : List Token}

theorem faultWithin_eq_faultFrom (unclosedComment : Option Nat) (stack : List (OpenList F))
    (tokens : List Token) :
    faultWithin unclosedComment stack tokens =
      faultFrom F (nextWithin unclosedComment stack tokens) := by
  induction tokens generalizing stack with
  | nil => cases unclosedComment <;> cases stack <;> rfl
  | cons t rest ih =>
      rw [nextWithin_cons, faultWithin]
      cases ReadStep.ofToken stack t with
      | more stack' => exact ih stack'
      | done e => rfl
      | fail err => rfl

/-- Reading expression after expression ends with the fault of the one pass. -/
theorem faultWithin_of_all {s : TokenStream} {es : List (Expr F)} {err : Option ReadError}
    (hAll : s.all = (es, err)) : faultWithin (F := F) s.unclosedComment [] s.tokens = err := by
  rw [faultWithin_eq_faultFrom]
  induction es generalizing s with
  | nil =>
      have hLast := next_of_all_nil hAll
      rw [next] at hLast
      rcases hNext : nextWithin (F := F) s.unclosedComment [] s.tokens with ⟨answer, later⟩
      rw [hNext] at hLast
      subst hLast
      cases err <;> rfl
  | cons e es ih =>
      obtain ⟨later, hNext, hLater⟩ := next_of_all_cons hAll
      rw [next] at hNext
      rw [hNext, faultFrom, faultWithin_eq_faultFrom]
      exact ih hLater

theorem openAfter?_append (stack : List (OpenList F)) (tokens later : List Token) :
    openAfter? stack (tokens ++ later) =
      (openAfter? stack tokens).bind fun stack' => openAfter? stack' later := by
  induction tokens generalizing stack with
  | nil => rfl
  | cons t rest ih =>
      rw [List.cons_append, openAfter?, openAfter?]
      cases ReadStep.ofToken stack t with
      | more stack' => exact ih stack'
      | done e => exact ih []
      | fail err => rfl

/-- Tokens without a fault leave it to what follows them to find one. -/
theorem faultWithin_append_of_openAfter? {stack' : List (OpenList F)}
    (hOpen : openAfter? stack tokens = some stack') (unclosedComment : Option Nat)
    (later : List Token) :
    faultWithin unclosedComment stack (tokens ++ later) =
      faultWithin unclosedComment stack' later := by
  fun_induction openAfter? stack tokens with
  | case1 stack =>
      cases hOpen
      rfl
  | case2 stack t rest stack' hOf ih => rw [← ih hOpen, List.cons_append, faultWithin, hOf]
  | case3 stack t rest e hOf ih => rw [← ih hOpen, List.cons_append, faultWithin, hOf]
  | case4 => cases hOpen

theorem faultWithin_of_openAfter?_eq_some {stack' : List (OpenList F)}
    (hOpen : openAfter? stack tokens = some stack') (unclosedComment : Option Nat) :
    faultWithin unclosedComment stack tokens = faultWithin unclosedComment stack' [] := by
  have hAlone := faultWithin_append_of_openAfter? hOpen unclosedComment []
  rwa [List.append_nil] at hAlone

/-- A fault before the end of the tokens is one that more input cannot mend. -/
theorem exists_fault_of_openAfter?_eq_none (hOpen : openAfter? stack tokens = none)
    (unclosedComment : Option Nat) :
    ∃ err, faultWithin unclosedComment stack tokens = some err ∧ err.isIncomplete = false := by
  fun_induction openAfter? stack tokens with
  | case1 => cases hOpen
  | case2 stack t rest stack' hOf ih =>
      rw [faultWithin, hOf]
      exact ih hOpen
  | case3 stack t rest e hOf ih =>
      rw [faultWithin, hOf]
      exact ih hOpen
  | case4 stack t rest err hOf =>
      rw [faultWithin, hOf]
      exact ⟨err, rfl, (ReadStep.ofToken_eq_fail hOf).2⟩

theorem faultWithin_nil_eq_none_iff :
    faultWithin unclosedComment stack [] = none ↔ unclosedComment = none ∧ stack = [] := by
  cases unclosedComment <;> cases stack <;> simp [faultWithin, endOfInput]

/-- There is no fault exactly if all lists are closed at the end and no comment is open. -/
theorem faultWithin_eq_none_iff :
    faultWithin unclosedComment stack tokens = none ↔
      unclosedComment = none ∧ openAfter? stack tokens = some [] := by
  cases hOpen : openAfter? stack tokens with
  | none =>
      obtain ⟨err, hFault, -⟩ := exists_fault_of_openAfter?_eq_none hOpen unclosedComment
      simp [hFault]
  | some stack' =>
      rw [faultWithin_of_openAfter?_eq_some hOpen, faultWithin_nil_eq_none_iff]
      simp

/-- All tokens are read exactly if no more than a lack of input is found. -/
theorem isSome_openAfter?_iff (unclosedComment : Option Nat) :
    (openAfter? stack tokens).isSome = true ↔
      ∀ err ∈ faultWithin unclosedComment stack tokens, err.isIncomplete = true := by
  cases hOpen : openAfter? stack tokens with
  | none =>
      obtain ⟨err, hFault, hHard⟩ := exists_fault_of_openAfter?_eq_none hOpen unclosedComment
      simp [hFault, hHard]
  | some stack' =>
      rw [faultWithin_of_openAfter?_eq_some hOpen]
      cases unclosedComment <;> cases stack' <;>
        simp [faultWithin, endOfInput, ReadError.isIncomplete]

end TokenStream

end Lisp
