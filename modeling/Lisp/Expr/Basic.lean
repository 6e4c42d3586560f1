import Lisp.Text.Basic

/-! Expressions as binary trees. A list is a spine of pairs, and helpers go between a
spine and the items on it. Every expression is the list of its heads with its ending as
the tail. -/

namespace Lisp

/-- An expression is an integer, a boolean, a symbol, the empty list or a pair.
A program that builds expressions of its own may also put values of its type `F`
where an expression belongs. Such a value is not an expression, and evaluating
or printing it is an error. -/
inductive Expr (F : Type) where
  | int (value : Int)
  | bool (value : Bool)
  | symbol (name : Text)
  | nil
  | pair (head tail : Expr F)
  | host (value : F)
  deriving Inhabited

/-- An expression without host values, as the reader makes them. -/
abbrev Datum := Expr Empty

namespace Expr

variable {F : Type}

/-- The list of these items, ending in `tail`. A tail other than `nil` makes the
list dotted. -/
def ofList (items : List (Expr F)) (tail : Expr F := .nil) : Expr F := items.foldr .pair tail

/-- The heads along the spine of tails. What the spine ends in is left out. -/
def heads : Expr F → List (Expr F)
  | .pair head tail => head :: heads tail
  | _ => []

/-- What the spine of tails ends in. It is never a pair. -/
def ending : Expr F → Expr F
  | .pair _ tail => ending tail
  | e => e

/-- A proper list: its spine ends in `nil`. -/
def isProper : Expr F → Bool
  | .nil => true
  | .pair _ tail => isProper tail
  | _ => false

/-- Walk along a spine to what it ends in; `items` holds the heads so far, the newest first. -/
def unroll (items : List (Expr F)) : Expr F → List (Expr F) × Expr F
  | .pair head tail => unroll (head :: items) tail
  | e => (items, e)

/-- The items of a proper list: the heads that the walk along its spine finds before it comes to
`nil`. -/
def items? (e : Expr F) : Option (List (Expr F)) :=
  match unroll [] e with
  | (items, .nil) => some items.reverse
  | _ => none

/-- Equality by shape and payload. The spines are walked side by side, and only
heads are compared by recursion. -/
def same [BEq F] : Expr F → Expr F → Bool
  | .int a, .int b => a == b
  | .bool a, .bool b => a == b
  | .symbol a, .symbol b => a == b
  | .nil, .nil => true
  | .host a, .host b => a == b
  | .pair h t, .pair h' t' => h.same h' && t.same t'
  | _, _ => false

instance [BEq F] : BEq (Expr F) := ⟨same⟩

section

variable {H : Type} (atom : Expr F → H) (seed : H) (combine : H → H → H)

mutual

/-- A digest of an expression, given digests of atoms. Along a spine the digest so far is
combined with that of each head in turn, and at last with that of the ending. -/
def digest : Expr F → H
  | .pair head tail => digestTail (combine seed (digest head)) tail
  | e => atom e

/-- Go on along a spine with the digest so far. -/
def digestTail (sofar : H) : Expr F → H
  | .pair head tail => digestTail (combine sofar (digest head)) tail
  | e => combine sofar (atom e)

end

end

@[simp] theorem ofList_nil (tail : Expr F) : ofList [] tail = tail := rfl

@[simp] theorem ofList_cons (e : Expr F) (items : List (Expr F)) (tail : Expr F) :
    ofList (e :: items) tail = .pair e (ofList items tail) := rfl

theorem ofList_heads (e : Expr F) : ofList e.heads e.ending = e := by
  induction e <;> simp_all [heads, ending]

theorem unroll_eq (items : List (Expr F)) (e : Expr F) :
    unroll items e = (e.heads.reverse ++ items, e.ending) := by
  induction e generalizing items with
  | pair head tail ihHead ihTail => simp [unroll, ihTail, heads, ending]
  | _ => rfl

end Expr

end Lisp
