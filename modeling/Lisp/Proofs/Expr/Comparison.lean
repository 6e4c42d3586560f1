import Lisp.Proofs.Expr.Equality

/-! Comparing two expressions as objects. Two spines are walked side by side, their heads are
compared in the same way, and the walk is over where both spines go on in one and the same object.
Which objects are shared depends on how the expressions were built, so the walk is a relation. Main
statement: whatever is shared, the answer is whether the two are the same tree, and a digest, which
is a fold along the spine, agrees on expressions that are the same. -/

namespace Lisp

/-- The kinds of expressions. -/
inductive Variant where
  | int
  | bool
  | symbol
  | nil
  | pair
  | host

namespace Expr

variable {F : Type}

def variant : Expr F → Variant
  | .int _ => .int
  | .bool _ => .bool
  | .symbol _ => .symbol
  | .nil => .nil
  | .pair _ _ => .pair
  | .host _ => .host

/-- Comparing two expressions may end with this answer. Where both sides are one object, a pair is
not looked into. Otherwise the heads of two pairs are compared first, and the walk goes on along the
tails if they are equal. -/
inductive Comparison [BEq F] : Expr F → Expr F → Bool → Prop where
  | int (n m : Int) : Comparison (.int n) (.int m) (n == m)
  | bool (p q : Bool) : Comparison (.bool p) (.bool q) (p == q)
  | symbol (s t : Text) : Comparison (.symbol s) (.symbol t) (s == t)
  | nil : Comparison .nil .nil true
  | host (v w : F) : Comparison (.host v) (.host w) (v == w)
  | variants {a b : Expr F} (hVariants : a.variant ≠ b.variant) : Comparison a b false
  | shared (head tail : Expr F) : Comparison (.pair head tail) (.pair head tail) true
  | heads {head head' : Expr F} (hHeads : Comparison head head' false) (tail tail' : Expr F) :
      Comparison (.pair head tail) (.pair head' tail') false
  | tails {head head' tail tail' : Expr F} {answer : Bool} (hHeads : Comparison head head' true)
      (more : Comparison tail tail' answer) :
      Comparison (.pair head tail) (.pair head' tail') answer

section

variable [BEq F] {a b : Expr F}

theorem same_of_variant_ne (hVariants : a.variant ≠ b.variant) : a.same b = false := by
  cases a <;> cases b <;> first | rfl | exact absurd rfl hVariants

/-- Comparing can always end, and with this answer if no object is shared. -/
theorem comparison_same (a b : Expr F) : Comparison a b (a.same b) := by
  induction a generalizing b with
  | pair head tail ihHead ihTail =>
      cases b with
      | pair head' tail' =>
          have hHeads := ihHead head'
          rw [same]
          cases hSame : head.same head' with
          | true =>
              rw [hSame] at hHeads
              exact .tails hHeads (ihTail tail')
          | false =>
              rw [hSame] at hHeads
              exact .heads hHeads tail tail'
      | _ => exact .variants (by simp [variant])
  | int n =>
      cases b with
      | int m => exact .int n m
      | _ => exact .variants (by simp [variant])
  | bool p =>
      cases b with
      | bool q => exact .bool p q
      | _ => exact .variants (by simp [variant])
  | symbol s =>
      cases b with
      | symbol t => exact .symbol s t
      | _ => exact .variants (by simp [variant])
  | nil =>
      cases b with
      | nil => exact .nil
      | _ => exact .variants (by simp [variant])
  | host v =>
      cases b with
      | host w => exact .host v w
      | _ => exact .variants (by simp [variant])

/-- No shared object changes the answer. -/
theorem Comparison.eq_same [EquivBEq F] {answer : Bool} (hCompare : Comparison a b answer) :
    answer = a.same b := by
  induction hCompare with
  | int | bool | symbol | nil | host => rfl
  | variants hVariants => exact (same_of_variant_ne hVariants).symm
  | shared head tail => exact (same_refl (pair head tail)).symm
  | heads hHeads tail tail' ih => rw [same, ← ih, Bool.false_and]
  | tails hHeads more ihHeads ihMore => rw [same, ← ihHeads, ← ihMore, Bool.true_and]

theorem comparison_iff [EquivBEq F] {answer : Bool} :
    Comparison a b answer ↔ answer = a.same b := by
  constructor
  · exact Comparison.eq_same
  · rintro rfl
    exact comparison_same a b

end

section

variable {H : Type} (atom : Expr F → H) (seed : H) (combine : H → H → H)

theorem digestTail_eq_foldl (sofar : H) (e : Expr F) :
    digestTail atom seed combine sofar e =
      combine (e.heads.foldl
          (fun sofar item => combine sofar (digest atom seed combine item)) sofar)
        (atom e.ending) := by
  induction e generalizing sofar with
  | pair head tail ihHead ihTail =>
      rw [digestTail, ihTail]
      rfl
  | _ => simp only [digestTail, heads, ending, List.foldl_nil]

/-- The digest of a pair is a fold over the heads along its spine, and then over its ending. -/
theorem digest_pair_eq_foldl (head tail : Expr F) :
    digest atom seed combine (.pair head tail) =
      combine ((pair head tail).heads.foldl
          (fun sofar item => combine sofar (digest atom seed combine item)) seed)
        (atom (pair head tail).ending) := by
  rw [digest, digestTail_eq_foldl]
  rfl

/-- Digests agree on expressions that are the same if those of host values do, and so do digests
that go on from the same digest so far. -/
theorem digest_eq_of_same [BEq F]
    (hHost : ∀ v w : F, (v == w) = true → atom (.host v) = atom (.host w)) {a b : Expr F}
    (hSame : a.same b = true) :
    digest atom seed combine a = digest atom seed combine b ∧
      ∀ sofar, digestTail atom seed combine sofar a = digestTail atom seed combine sofar b := by
  induction a generalizing b with
  | pair head tail ihHead ihTail =>
      cases b with
      | pair head' tail' =>
          rw [same, Bool.and_eq_true] at hSame
          obtain ⟨hHead, -⟩ := ihHead hSame.1
          obtain ⟨-, hTail⟩ := ihTail hSame.2
          constructor
          · rw [digest, digest, hHead, hTail]
          · intro sofar
            rw [digestTail, digestTail, hHead, hTail]
      | _ => cases hSame
  | host v =>
      cases b with
      | host w =>
          have hAtom := hHost v w hSame
          simp [digest, digestTail, hAtom]
      | _ => cases hSame
  | _ => cases b <;> simp_all [same]

end

/-- Comparing two expressions tells whether they are the same tree, with the same variant at every
node and equal payloads, whichever objects they share. So sameness is an equivalence relation, a
number is never a boolean, and two pairs are the same if both their parts are. The digest of a pair
is a left fold along its spine, and it is the same for expressions that are the same, whatever the
digests of atoms and the way of combining them. -/
theorem same_iff_eq_and_digest_eq [BEq F] [EquivBEq F] :
    (∀ (a b : Expr F) (answer : Bool), Comparison a b answer ↔ answer = a.same b) ∧
    (LawfulBEq F → ∀ a b : Expr F, a.same b = true ↔ a = b) ∧
    (∀ (n : Int) (p : Bool), ¬ (int n : Expr F).same (bool p) = true) ∧
    Equivalence (fun a b : Expr F => a.same b = true) ∧
    (∀ head tail head' tail' : Expr F, (pair head tail).same (pair head' tail') = true ↔
      head.same head' = true ∧ tail.same tail' = true) ∧
    ∀ {H : Type} (atom : Expr F → H) (seed : H) (combine : H → H → H),
      (∀ head tail : Expr F, digest atom seed combine (.pair head tail) =
        combine ((pair head tail).heads.foldl
            (fun sofar item => combine sofar (digest atom seed combine item)) seed)
          (atom (pair head tail).ending)) ∧
      ((∀ v w : F, (v == w) = true → atom (.host v) = atom (.host w)) →
        ∀ a b : Expr F, a.same b = true →
          digest atom seed combine a = digest atom seed combine b) := by
  refine ⟨fun a b answer => comparison_iff, fun _ => same_eq_true_iff,
    fun n p => Bool.false_ne_true, ⟨same_refl, same_symm, same_trans⟩,
    fun head tail head' tail' => ?_, fun atom seed combine => ?_⟩
  · rw [same, Bool.and_eq_true]
  · exact ⟨digest_pair_eq_foldl atom seed combine, fun hHost a b hSame =>
      (digest_eq_of_same atom seed combine hHost hSame).1⟩

theorem same_iff_eq_and_digest_eq_nested :
    let a : Expr Nat := .ofList [.ofList [.int 1] (.host 7), .nil] (.bool true)
    let b : Expr Nat := .ofList [.ofList [.bool true] (.host 7), .nil] (.bool true)
    let atom : Expr Nat → Nat := fun e => if e == .host 7 then 1 else 0
    a.same b = false ∧ a ≠ b ∧ Comparison a a true ∧ Comparison a b false ∧
      (∀ answer, Comparison a b answer → answer = false) ∧
      ∀ c, a.same c = true → c.digest atom 0 Nat.add = a.digest atom 0 Nat.add := by
  intro a b atom
  obtain ⟨hCompare, hTree, -, -, -, hDigest⟩ := same_iff_eq_and_digest_eq (F := Nat)
  have hDiffer : a.same b = false := rfl
  have hSame : a.same a = true := rfl
  refine ⟨hDiffer, ?_, (hCompare a a true).2 hSame.symm, (hCompare a b false).2 hDiffer.symm,
    ?_, ?_⟩
  · intro hEq
    rw [(hTree inferInstance a b).2 hEq] at hDiffer
    cases hDiffer
  · intro answer hAnswer
    rw [(hCompare a b answer).1 hAnswer, hDiffer]
  · intro c hCopy
    exact ((hDigest atom 0 Nat.add).2 (fun v w hEq => by rw [eq_of_beq hEq]) a c hCopy).symm

end Expr

end Lisp
