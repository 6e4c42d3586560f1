import Lisp.Expr.Basic
import Mathlib.Logic.ExistsUnique

/-! Building a list and taking it apart. Building goes along the items from behind, and every
way of taking a list apart goes along its spine from the front; what they have in common are
the heads and the ending of a spine. Main statement: these two are all there is to an expression, so
that the items of a proper list are those it is built from. -/

namespace Lisp.Expr

variable {F : Type}

theorem heads_ofList (items : List (Expr F)) (tail : Expr F) :
    (ofList items tail).heads = items ++ tail.heads := by
  induction items with
  | nil => rfl
  | cons item items ih => rw [ofList_cons, heads, ih, List.cons_append]

theorem ending_ofList (items : List (Expr F)) (tail : Expr F) :
    (ofList items tail).ending = tail.ending := by
  induction items with
  | nil => rfl
  | cons item items ih => rw [ofList_cons, ending, ih]

theorem ending_ne_pair (e head tail : Expr F) : e.ending ≠ .pair head tail := by
  induction e with
  | pair _ _ _ ih => exact ih
  | _ => nofun

section

variable {e : Expr F}

theorem heads_eq_nil (hPair : ∀ head tail, e ≠ .pair head tail) : e.heads = [] := by
  cases e with
  | pair head tail => exact absurd rfl (hPair head tail)
  | _ => rfl

theorem ending_eq_self (hPair : ∀ head tail, e ≠ .pair head tail) : e.ending = e := by
  cases e with
  | pair head tail => exact absurd rfl (hPair head tail)
  | _ => rfl

theorem isProper_iff : e.isProper = true ↔ e.ending = .nil := by
  induction e with
  | pair head tail ihHead ihTail => exact ihTail
  | _ => simp [isProper, ending]

/-- A list has items exactly if its spine ends in `nil`, and they are the heads along it. -/
theorem items?_eq_some_iff_heads {items : List (Expr F)} :
    e.items? = some items ↔ e.ending = .nil ∧ e.heads = items := by
  rw [items?, unroll_eq, List.append_nil]
  cases e.ending <;> simp

theorem items?_eq_some_iff {items : List (Expr F)} :
    e.items? = some items ↔ e = .ofList items := by
  rw [items?_eq_some_iff_heads]
  constructor
  · rintro ⟨hEnding, rfl⟩
    rw [← hEnding, ofList_heads]
  · rintro rfl
    rw [ending_ofList, heads_ofList]
    exact ⟨rfl, List.append_nil items⟩

theorem isProper_iff_items?_ne_none : e.isProper = true ↔ e.items? ≠ none := by
  rw [isProper_iff, Option.ne_none_iff_exists']
  simp only [items?_eq_some_iff_heads, exists_and_left, exists_eq', and_true]

/-- Items in front of a list come before its own items, and it is still no proper list if it was
none. -/
theorem items?_ofList (items : List (Expr F)) (tail : Expr F) :
    (ofList items tail).items? = tail.items?.map (items ++ ·) := by
  ext all
  rw [Option.map_eq_some_iff, items?_eq_some_iff_heads,
    ending_ofList, heads_ofList]
  simp only [items?_eq_some_iff_heads, and_assoc, exists_and_left, exists_eq_left']

/-- An expression is built in one way only from items and an ending that is no pair. -/
theorem eq_ofList_iff {items : List (Expr F)} {ending : Expr F}
    (hEnding : ∀ head tail, ending ≠ .pair head tail) :
    e = ofList items ending ↔ items = e.heads ∧ ending = e.ending := by
  constructor
  · rintro rfl
    rw [heads_ofList, ending_ofList, heads_eq_nil hEnding, ending_eq_self hEnding, List.append_nil]
    exact ⟨rfl, rfl⟩
  · rintro ⟨rfl, rfl⟩
    exact (ofList_heads e).symm

end

section

variable [BEq F]

theorem same_pair_eq_false {e head tail : Expr F} (hPair : ∀ head tail, e ≠ .pair head tail) :
    e.same (.pair head tail) = false ∧ (pair head tail).same e = false := by
  cases e with
  | pair head tail => exact absurd rfl (hPair head tail)
  | _ => exact ⟨rfl, rfl⟩

/-- Lists are the same if their items and their endings are. -/
theorem same_ofList_iff {items items' : List (Expr F)} {ending ending' : Expr F}
    (hEnding : ∀ head tail, ending ≠ .pair head tail)
    (hEnding' : ∀ head tail, ending' ≠ .pair head tail) :
    (ofList items ending).same (ofList items' ending') = true ↔
      (items == items') = true ∧ ending.same ending' = true := by
  induction items generalizing items' with
  | nil =>
      cases items' with
      | nil => simp
      | cons item' items' => simp [same_pair_eq_false hEnding]
  | cons item items ih =>
      cases items' with
      | nil => simp [same_pair_eq_false hEnding']
      | cons item' items' =>
          rw [ofList_cons, ofList_cons, same, Bool.and_eq_true, ih, List.cons_beq_cons,
            Bool.and_eq_true, and_assoc]
          rfl

end

/-- Building a list and taking it apart are inverse to each other. A list that is built in front of
a tail has its items and then those of the tail, and it has items only if the tail is a proper list.
A proper list is built from its items. Every expression is built from one list of items and one
ending that is no pair, and these items are the heads along its spine. Two lists built in this way
are equal exactly if their items and their endings are. -/
theorem items?_ofList_and_existsUnique_spine :
    (∀ (items : List (Expr F)) (tail : Expr F),
      (ofList items tail).items? = tail.items?.map (items ++ ·)) ∧
    (∀ e : Expr F, (e.isProper = true ↔ e.items? ≠ none) ∧
      ∀ items, e.items? = some items → ofList items = e) ∧
    (∀ e : Expr F, ∃! spine : List (Expr F) × Expr F,
      (∀ head tail, spine.2 ≠ .pair head tail) ∧ e = ofList spine.1 spine.2) ∧
    (∀ (e : Expr F) (items : List (Expr F)) (ending : Expr F),
      (∀ head tail, ending ≠ .pair head tail) → e = ofList items ending → items = e.heads) ∧
    ∀ [BEq F] (items items' : List (Expr F)) (ending ending' : Expr F),
      (∀ head tail, ending ≠ .pair head tail) → (∀ head tail, ending' ≠ .pair head tail) →
        ((ofList items ending == ofList items' ending') = true ↔
          (items == items') = true ∧ (ending == ending') = true) := by
  refine ⟨items?_ofList, fun e => ⟨isProper_iff_items?_ne_none, fun items hItems => ?_⟩,
    fun e => ⟨(e.heads, e.ending), ⟨e.ending_ne_pair, (ofList_heads e).symm⟩, ?_⟩,
    fun e items ending hEnding hBuilt => ((eq_ofList_iff hEnding).1 hBuilt).1,
    fun items items' ending ending' => same_ofList_iff⟩
  · exact (items?_eq_some_iff.1 hItems).symm
  · rintro ⟨items, ending⟩ ⟨hEnding, hBuilt⟩
    obtain ⟨rfl, rfl⟩ := (eq_ofList_iff hEnding).1 hBuilt
    rfl

theorem items?_ofList_and_existsUnique_spine_dotted :
    let inner : Expr Nat := .ofList [.bool true] (.symbol ['b'])
    let list : Expr Nat := .ofList [inner, .nil]
    let dotted : Expr Nat := .ofList [.int 1, inner] (.host 7)
    (ofList [.int 1, list] list).items? = some [.int 1, list, inner, .nil] ∧
      ofList [inner, .nil] = list ∧ (ofList [.nil] dotted).items? = none ∧
      dotted.isProper = false ∧
      (∀ items, dotted = ofList items (.host 7) → items = [.int 1, inner]) ∧
      ∀ items, (dotted == ofList items (.host 7)) = true → ([.int 1, inner] == items) = true := by
  intro inner list dotted
  obtain ⟨hBuild, hItems, -, hHeads, hSame⟩ := items?_ofList_and_existsUnique_spine (F := Nat)
  have hList : list.items? = some [inner, .nil] := rfl
  have hHost : ∀ head tail : Expr Nat, .host 7 ≠ Expr.pair head tail := nofun
  refine ⟨?_, (hItems list).2 _ hList, ?_, ?_, fun items => hHeads dotted items _ hHost, ?_⟩
  · rw [hBuild, hList]
    rfl
  · rw [hBuild]
    rfl
  · rw [← Bool.not_eq_true, (hItems dotted).1]
    exact not_not_intro rfl
  · intro items hEqual
    exact ((hSame [.int 1, inner] items (.host 7) (.host 7) hHost hHost).1 hEqual).1

end Lisp.Expr
