import Lisp.Reader.Atom

/-! Reading expressions from a stream of tokens. The lists under way are a stack, so
nesting costs no recursion, and a fault ends the expression under way with the token at
fault. The stream stays usable after it. -/

namespace Lisp

/-- How far a list under way is with its dot: none yet, a tail to come, or a tail. -/
inductive TailState (F : Type) where
  | absent
  | expected
  | given (tail : Expr F)

/-- A list that is not closed yet. The newest of its items comes first. -/
structure OpenList (F : Type) where
  bracket : Bracket
  offset : Nat
  items : List (Expr F)
  tail : TailState F

namespace OpenList

variable {F : Type}

/-- The list with one more expression in it. Nothing may follow a dotted tail. -/
def add? (l : OpenList F) (e : Expr F) : Option (OpenList F) :=
  match l.tail with
  | .absent => some { l with items := e :: l.items }
  | .expected => some { l with tail := .given e }
  | .given _ => none

/-- The list with a dot. One item must come before a dot, and only one dot. -/
def addDot? (l : OpenList F) : Option (OpenList F) :=
  match l.tail, l.items with
  | .absent, _ :: _ => some { l with tail := .expected }
  | _, _ => none

/-- The expression that the list is, once it is closed. A tail must follow a dot. -/
def close? (l : OpenList F) : Option (Expr F) :=
  match l.tail with
  | .absent => some (.ofList l.items.reverse)
  | .expected => none
  | .given e => some (.ofList l.items.reverse e)

end OpenList

/-- What reading one token leads to: it goes on with these open lists, the innermost
first, or it ends. -/
inductive ReadStep (F : Type) where
  | more (stack : List (OpenList F))
  | done (e : Expr F)
  | fail (err : ReadError)

namespace ReadStep

variable {F : Type}

/-- An expression is complete: it is the result, or it goes into the innermost list. The
offset is that of its last token. -/
def place (stack : List (OpenList F)) (e : Expr F) (offset : Nat) : ReadStep F :=
  match stack with
  | [] => .done e
  | l :: outer =>
    match l.add? e with
    | some l => .more (l :: outer)
    | none => .fail (.excessTail offset)

/-- Read one token where these lists are open. -/
def ofToken (stack : List (OpenList F)) (t : Token) : ReadStep F :=
  match t.kind, stack with
  | .opener b, _ => .more (⟨b, t.offset, [], .absent⟩ :: stack)
  | .closer b, [] => .fail (.unexpectedCloser b t.offset)
  | .closer b, l :: outer =>
    if l.bracket = b then
      match l.close? with
      | some e => place outer e t.offset
      | none => .fail (.missingTail t.offset)
    else .fail (.mismatchedCloser b l.bracket l.offset t.offset)
  | .atom s, _ =>
    if s = ['.'] then
      match stack with
      | [] => .fail (.unexpectedDot t.offset)
      | l :: outer =>
        match l.addDot? with
        | some l => .more (l :: outer)
        | none => .fail (.unexpectedDot t.offset)
    else
      match readAtom s with
      | .ok e => place stack e t.offset
      | .error numeral => .fail (.longNumeral numeral t.offset)

end ReadStep

namespace TokenStream

variable {F : Type}

/-- The next token, which stays in the stream. An unclosed comment is reported once. -/
def peek (s : TokenStream) : Except ReadError (Option Token) × TokenStream :=
  match s.tokens, s.unclosedComment with
  | t :: _, _ => (.ok (some t), s)
  | [], none => (.ok none, s)
  | [], some offset => (.error (.unclosedComment offset), ⟨[], none⟩)

/-- The next token, taken from the stream. An unclosed comment is reported once. -/
def advance (s : TokenStream) : Except ReadError (Option Token) × TokenStream :=
  match s.tokens, s.unclosedComment with
  | t :: rest, _ => (.ok (some t), { s with tokens := rest })
  | [], none => (.ok none, s)
  | [], some offset => (.error (.unclosedComment offset), ⟨[], none⟩)

/-- What the end of a text means where these lists are open. -/
def endOfInput (stack : List (OpenList F)) (unclosedComment : Option Nat) :
    Except ReadError (Option (Expr F)) :=
  match unclosedComment, stack with
  | some offset, _ => .error (.unclosedComment offset)
  | none, [] => .ok none
  | none, l :: _ => .error (.unclosedList l.bracket l.offset)

/-- Go on reading an expression where these lists are open. The tokens up to the end of
the expression or up to the token at fault are taken. -/
def nextWithin (unclosedComment : Option Nat) (stack : List (OpenList F)) :
    List Token → Except ReadError (Option (Expr F)) × TokenStream
  | [] => (endOfInput stack unclosedComment, ⟨[], none⟩)
  | t :: rest =>
    match ReadStep.ofToken stack t with
    | .more stack => nextWithin unclosedComment stack rest
    | .done e => (.ok (some e), ⟨rest, unclosedComment⟩)
    | .fail err => (.error err, ⟨rest, unclosedComment⟩)

/-- Read the next expression. There is none at the end of the stream. -/
def next (s : TokenStream) : Except ReadError (Option (Expr F)) × TokenStream :=
  nextWithin s.unclosedComment [] s.tokens

theorem length_tokens_nextWithin {unclosedComment : Option Nat} {stack : List (OpenList F)}
    {tokens : List Token} {e : Expr F} {s : TokenStream}
    (hNext : nextWithin unclosedComment stack tokens = (.ok (some e), s)) :
    s.tokens.length < tokens.length := by
  fun_induction nextWithin unclosedComment stack tokens with
  | case1 stack =>
    simp only [endOfInput, Prod.mk.injEq] at hNext
    split at hNext <;> simp_all
  | case2 _ _ _ _ _ ih => have := ih hNext; simp; omega
  | case3 _ _ _ _ _ => simp at hNext; simp [← hNext.2]
  | case4 => simp at hNext

/-- Read expressions up to the end of the stream or the first error. -/
def all (s : TokenStream) : List (Expr F) × Option ReadError :=
  match _ : s.next with
  | (.error err, _) => ([], some err)
  | (.ok none, _) => ([], none)
  | (.ok (some e), rest) =>
    let (es, err) := all rest
    (e :: es, err)
termination_by s.tokens.length
decreasing_by
  rename_i hNext
  exact length_tokens_nextWithin hNext

end TokenStream

end Lisp
