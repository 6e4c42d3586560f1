import Lisp.Proofs.Eval.Compare
import Lisp.Proofs.Eval.Part

/-! More forms make no difference to what does not use them: an expression is evaluated with an
extended registry as without the extension, if none of its lists begins with an added name. Of
several forms of one name the last one counts. -/

namespace Lisp

variable {F : Type} {registry : Registry F} {extra : List (Text × SpecialForm F)}

theorem Expr.isPart_form_of_mem {name : Text} {e : Expr F} {operands : List (Expr F)}
    (hMem : e ∈ operands) : e.IsPart (.form name operands) := by
  apply IsPart.tail
  induction operands with
  | nil => cases hMem
  | cons first rest ih =>
      rcases List.mem_cons.1 hMem with rfl | hMem
      · exact .head _ (.refl _)
      · exact .tail _ (ih hMem)

/-- The names that lists in the expression begin with. The rest of a list is a list too. -/
def Expr.headNames : Expr F → List Text
  | .pair (.symbol name) tail => name :: headNames tail
  | .pair head tail => headNames head ++ headNames tail
  | _ => []

theorem Expr.mem_headNames {name : Text} {e tail : Expr F}
    (hPart : (pair (symbol name) tail).IsPart e) : name ∈ e.headNames := by
  induction e with
  | pair head rest ihHead ihRest =>
      cases head with
      | symbol other =>
          rw [headNames]
          cases hPart with
          | refl => exact List.mem_cons_self ..
          | head _ hHead => cases hHead
          | tail _ hRest => exact List.mem_cons_of_mem _ (ihRest hRest)
      | _ =>
          rw [headNames, List.mem_append]
          · cases hPart with
            | head _ hHead => exact .inl (ihHead hHead)
            | tail _ hRest => exact .inr (ihRest hRest)
          · nofun
  | _ => cases hPart

namespace Registry

theorem extend_append (registry : Registry F) (first second : List (Text × SpecialForm F)) :
    registry.extend (first ++ second) = (registry.extend first).extend second :=
  List.foldl_append

theorem get?_extend_of_not_mem {name : Text} (hName : name ∉ extra.map Prod.fst) :
    (registry.extend extra).get? name = registry.get? name := by
  induction extra generalizing registry with
  | nil => rfl
  | cons entry extra ih =>
      rw [List.map_cons, List.mem_cons, not_or] at hName
      obtain ⟨hEntry, hExtra⟩ := hName
      calc (registry.extend (entry :: extra)).get? name
          = (registry.insert entry.1 entry.2).get? name := ih hExtra
        _ = registry.get? name := by rw [Bindings.get?_insert, if_neg hEntry]

/-- Of several forms of one name the last one counts. -/
theorem get?_extend_of_last {name : Text} {after : List (Text × SpecialForm F)}
    (hLast : name ∉ after.map Prod.fst) (before : List (Text × SpecialForm F))
    (form : SpecialForm F) :
    (registry.extend (before ++ (name, form) :: after)).get? name = some form := by
  rw [List.append_cons, extend_append, get?_extend_of_not_mem hLast, extend_append]
  exact (Bindings.get?_insert ..).trans (if_pos rfl)

/-- No list in the expression begins with one of the added names. -/
def IsUnusedIn (extra : List (Text × SpecialForm F)) (e : Expr F) : Prop :=
  ∀ name tail, (Expr.pair (.symbol name) tail).IsPart e → name ∉ extra.map Prod.fst

theorem IsUnusedIn.of_isPart {e part : Expr F} (hUnused : IsUnusedIn extra e)
    (hPart : part.IsPart e) : IsUnusedIn extra part :=
  fun name tail hList => hUnused name tail (hList.trans hPart)

theorem IsUnusedIn.dispatch?_extend {e : Expr F} (hUnused : IsUnusedIn extra e) :
    (registry.extend extra).dispatch? e = registry.dispatch? e := by
  unfold dispatch?
  split
  · rw [get?_extend_of_not_mem (hUnused _ _ (.refl _))]
  · rfl

end Registry

theorem Outcome.isCompatible_eq : Outcome.IsCompatible (F := F) Eq where
  refl x := rfl
  andThen hFirst hNext := by rw [hFirst, funext hNext]

/-- Added forms that an expression does not use are never run on it. The induction is on the budget:
operands are parts of the expression, and nothing else is evaluated by the basic forms. -/
theorem evaluateWithin_extend_of_isUnusedIn (hBasic : registry.IsBasic) {e : Expr F}
    (hUnused : Registry.IsUnusedIn extra e) (budget : Nat) (env : Environment F) :
    evaluateWithin (registry.extend extra) budget e env = evaluateWithin registry budget e env := by
  induction budget generalizing e env with
  | zero => rfl
  | succ budget ih =>
      symm
      apply evaluateWithin_succ_related Outcome.isCompatible_eq hBasic hUnused.dispatch?_extend
      rintro name operands rfl operand hMem env
      exact (ih (hUnused.of_isPart (Expr.isPart_form_of_mem hMem)) env).symm

/-- An extension of the registry makes no difference to expressions that do not use it, whatever the
added forms do. It can be made in pieces, and of the forms of one name the last one counts, also
where a list does not have as many operands as this form. -/
theorem evaluateWithin_extend (hBasic : registry.IsBasic) (extra : List (Text × SpecialForm F)) :
    (∀ e, Registry.IsUnusedIn extra e → ∀ budget env,
      evaluateWithin (registry.extend extra) budget e env = evaluateWithin registry budget e env) ∧
    (∀ (base : Registry F) first second budget e env,
      evaluateWithin (base.extend (first ++ second)) budget e env =
        evaluateWithin ((base.extend first).extend second) budget e env) ∧
    ∀ (base : Registry F) before name form after, name ∉ after.map Prod.fst →
      ∀ budget operands env,
        let extended := base.extend (before ++ (name, form) :: after)
        evaluateWithin extended (budget + 1) (.form name operands) env =
          if operands.length = form.arity then
            form.run (evaluateWithin extended budget) (.form name operands) operands env
          else ⟨[], .ok (.form name operands, env)⟩ := by
  refine ⟨fun e hUnused => evaluateWithin_extend_of_isUnusedIn hBasic hUnused, ?_, ?_⟩
  · intro base first second budget e env
    rw [Registry.extend_append]
  · intro base before name form after hLast budget operands env extended
    have hName : extended.get? name = some form := Registry.get?_extend_of_last hLast before form
    split
    · rename_i hArity
      exact evaluateWithin_form hName hArity budget env
    · rename_i hArity
      have hData : extended.dispatch? (.form name operands) = none := by
        rw [Registry.dispatch?_form hName, if_neg hArity]
      exact evaluateWithin_of_dispatch?_eq_none hData nofun budget env

/-- An added name is only data where it ends a list, so the tag makes no difference. Of the two forms
of that name the last one counts, which has one operand, so a list with two is data as well. -/
theorem evaluateWithin_extend_name_at_end :
    let both : Text := "both".toList
    let before : List (Text × SpecialForm Empty) := [(both, .binding), ("tag".toList, .recording)]
    let extra : List (Text × SpecialForm Empty) := before ++ [(both, .recording)]
    let tag : Datum := .pair (.int 1) (.symbol both)
    let e : Datum := .form "bind!".toList [.symbol ['x'], .form "touch!".toList [tag]]
    let list : Datum := .form both [.int 1, .int 2]
    Registry.IsBasic (F := Empty) .effectful ∧ Registry.IsUnusedIn extra e ∧
      evaluateWithin (Registry.effectful.extend extra) 2 e .empty =
        ⟨[tag], .ok (tag, Environment.empty.bindName ['x'] tag)⟩ ∧
      evaluateWithin (Registry.effectful.extend extra) 1 list .empty =
        ⟨[], .ok (list, .empty)⟩ := by
  intro both before extra tag e list
  have hNames : ∀ name ∈ e.headNames, name ∉ extra.map Prod.fst := by decide
  have hUnused : Registry.IsUnusedIn extra e :=
    fun name tail hPart => hNames name (Expr.mem_headNames hPart)
  obtain ⟨hSame, -, hLast⟩ := evaluateWithin_extend Registry.isBasic_effectful extra
  refine ⟨Registry.isBasic_effectful, hUnused, ?_, ?_⟩
  · exact hSame e hUnused 2 .empty
  · exact hLast .effectful before both .recording [] nofun 0 [.int 1, .int 2] .empty

end Lisp
