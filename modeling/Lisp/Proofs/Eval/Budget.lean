import Lisp.Proofs.Eval.Reach

/-! A budget cuts an evaluation off and changes nothing else. With a larger one an evaluation that
was not cut off is the same, and one that was goes on from where it stopped. What counts is how
deeply the evaluations that are made are nested, and not how deep the expression is. -/

namespace Lisp

variable {F α : Type}

/-- The second outcome is what the first one comes to with more budget. It is the same, unless the
first one has run out, and then it begins with the tags recorded so far. -/
structure Outcome.ExtendsTo (x y : Outcome F α) : Prop where
  eq_of_not_exceeded : x.result ≠ .error .depthExceeded → y = x
  isPrefix_recorded : x.recorded <+: y.recorded

theorem Outcome.isPrefix_recorded_andThen {β : Type} (x : Outcome F α) (next : α → Outcome F β) :
    x.recorded <+: (x.andThen next).recorded := by
  unfold andThen
  split
  · exact List.prefix_append ..
  · exact List.prefix_refl _

theorem Outcome.andThen_of_error {β : Type} {x : Outcome F α} {err : EvalError F}
    (hResult : x.result = .error err) (next : α → Outcome F β) :
    x.andThen next = ⟨x.recorded, .error err⟩ := by
  unfold andThen
  rw [hResult]

theorem Outcome.andThen_of_ok {β : Type} {x : Outcome F α} {done : α} (hResult : x.result = .ok done)
    (next : α → Outcome F β) :
    x.andThen next = ⟨x.recorded ++ (next done).recorded, (next done).result⟩ := by
  unfold andThen
  rw [hResult]

theorem Outcome.isCompatible_extendsTo :
    Outcome.IsCompatible (F := F) Outcome.ExtendsTo where
  refl x := ⟨fun _ => rfl, List.prefix_refl _⟩
  andThen {x x' next next'} hFirst hNext := by
    by_cases hExceeds : x.result = .error .depthExceeded
    · rw [andThen_of_error hExceeds]
      refine ⟨fun hWithin => absurd rfl hWithin, ?_⟩
      exact hFirst.isPrefix_recorded.trans (isPrefix_recorded_andThen x' next')
    · obtain rfl := hFirst.eq_of_not_exceeded hExceeds
      cases hResult : x'.result with
      | error err =>
          rw [andThen_of_error hResult, andThen_of_error hResult]
          exact ⟨fun _ => rfl, List.prefix_refl _⟩
      | ok done =>
          rw [andThen_of_ok hResult, andThen_of_ok hResult]
          refine ⟨fun hWithin => ?_, ?_⟩
          · rw [(hNext done).eq_of_not_exceeded hWithin]
          · exact (List.prefix_append_right_inj _).2 (hNext done).isPrefix_recorded

variable {registry : Registry F} {env : Environment F} {e : Expr F} {budget : Nat}

/-- A larger budget goes on where a smaller one stops. The induction is on the smaller one, which is
used up at the same rate as the larger one. -/
theorem evaluateWithin_extendsTo (hBasic : registry.IsBasic) {budget' : Nat}
    (hLe : budget ≤ budget') (e : Expr F) (env : Environment F) :
    (evaluateWithin registry budget e env).ExtendsTo (evaluateWithin registry budget' e env) := by
  induction budget generalizing budget' e env with
  | zero => exact ⟨fun hWithin => absurd rfl hWithin, List.nil_prefix⟩
  | succ budget ih =>
      obtain ⟨spare, rfl⟩ := Nat.exists_eq_add_of_le' hLe
      apply evaluateWithin_succ_related Outcome.isCompatible_extendsTo hBasic rfl
      intro name operands hForm operand hMem env
      exact ih (Nat.le_add_left ..) operand env

/-- The expression is cut off by this budget. -/
def Exceeds (registry : Registry F) (budget : Nat) (e : Expr F) (env : Environment F) : Prop :=
  (evaluateWithin registry budget e env).result = .error .depthExceeded

/-- What is evaluated in an expression has one less of its budget. -/
theorem Nested.exceeds (hBasic : registry.IsBasic) {turn : Turn} {inner : Expr F}
    (hNested : Nested registry env turn e inner) (hExceeds : Exceeds registry budget inner env) :
    Exceeds registry (budget + 1) e env := by
  obtain ⟨depth, effect, hEffect⟩ := exists_hasEffect hBasic inner
  have hDepth : budget < depth := (hEffect.exceeds_iff budget env).1 hExceeds
  obtain ⟨recorded, -, hFails⟩ := hEffect.exists_evaluateWithin_of_lt hDepth
  cases hNested with
  | condition hName condition consequent alternative =>
      rw [Exceeds, evaluateWithin_form hName rfl,
        SpecialForm.run_conditional_of_error (hFails env)]
  | operand hName target operand =>
      rw [Exceeds, evaluateWithin_form hName rfl, SpecialForm.run_binding_of_error (hFails env)]
  | branch hName hSelects consequent alternative =>
      obtain ⟨depth', recorded', dropped, hCondition⟩ := hSelects.exists_hasEffect hBasic
      rw [Exceeds, evaluateWithin_form hName rfl]
      rcases Nat.lt_or_ge budget depth' with hLess | hEnough
      · obtain ⟨recorded'', -, hConditionFails⟩ := hCondition.exists_evaluateWithin_of_lt hLess
        rw [SpecialForm.run_conditional_of_error (hConditionFails env)]
      · rw [SpecialForm.run_conditional_of_bool (hCondition.evaluateWithin_eq hEnough env)
          (hFails env)]

/-- An expression that exceeds a budget does so in something that is evaluated in it, unless there is
no budget at all. -/
theorem exists_nested_of_exceeds (hBasic : registry.IsBasic)
    (hExceeds : Exceeds registry (budget + 1) e env) :
    ∃ turn inner, Nested registry env turn e inner ∧ Exceeds registry budget inner env := by
  obtain ⟨depth, effect, hEffect⟩ := exists_hasEffect hBasic e
  have hDepth : budget + 1 < depth := (hEffect.exceeds_iff _ env).1 hExceeds
  cases hEffect with
  | data | host | recording => omega
  | binding hName hOperand | notSymbol hName _ hOperand | operandFails hName _ hOperand =>
      exact ⟨.operand, _, .operand hName _ _,
        (hOperand.exceeds_iff budget env).2 (Nat.lt_of_succ_lt_succ hDepth)⟩
  | mismatch hName hCondition | conditionFails hName hCondition =>
      exact ⟨.condition, _, .condition hName _ _ _,
        (hCondition.exceeds_iff budget env).2 (Nat.lt_of_succ_lt_succ hDepth)⟩
  | @conditional _ _ _ _ depth depth' _ _ _ _ _ hName hCondition hBranch =>
      rcases Nat.lt_or_ge budget depth with hLess | hEnough
      · exact ⟨.condition, _, .condition hName _ _ _, (hCondition.exceeds_iff budget env).2 hLess⟩
      · have hLess : budget < depth' := by omega
        exact ⟨.branch, _, .branch hName (hCondition.hasValue env) _ _,
          (hBranch.exceeds_iff budget env).2 hLess⟩

/-- A budget is exceeded exactly if evaluation reaches something by as many turns. -/
theorem exceeds_iff_exists_reaches (hBasic : registry.IsBasic) :
    Exceeds registry budget e env ↔
      ∃ path reached, path.length = budget ∧ Reaches registry env e path reached := by
  constructor
  · intro hExceeds
    induction budget generalizing e with
    | zero => exact ⟨[], e, rfl, .refl e⟩
    | succ budget ih =>
        obtain ⟨turn, inner, hNested, hInner⟩ := exists_nested_of_exceeds hBasic hExceeds
        obtain ⟨path, reached, rfl, hReaches⟩ := ih hInner
        exact ⟨turn :: path, reached, rfl, .turn hNested hReaches⟩
  · rintro ⟨path, reached, rfl, hReaches⟩
    induction hReaches with
    | refl e => exact rfl
    | turn hNested hReaches ih => exact hNested.exceeds hBasic ih

theorem Exceeds.of_le (hBasic : registry.IsBasic) {budget' : Nat}
    (hExceeds : Exceeds registry budget' e env) (hLe : budget ≤ budget') :
    Exceeds registry budget e env := by
  by_contra hWithin
  have hSame := (evaluateWithin_extendsTo hBasic hLe e env).eq_of_not_exceeded hWithin
  rw [Exceeds, hSame] at hExceeds
  exact hWithin hExceeds

/-- A budget that is enough for an expression is enough for what it reaches. -/
theorem Reaches.exceeds (hBasic : registry.IsBasic) {path : List Turn} {reached : Expr F}
    (hReaches : Reaches registry env e path reached) (hExceeds : Exceeds registry budget reached env) :
    Exceeds registry budget e env := by
  induction hReaches with
  | refl e => exact hExceeds
  | turn hNested hReaches ih =>
      exact (hNested.exceeds hBasic (ih hExceeds)).of_le hBasic (Nat.le_succ budget)

/-- Data and tags are not looked into, so any budget is enough for them. -/
theorem not_exceeds_of_inert (hInert : registry.dispatch? e = none ∨
      ∃ name tag, registry.get? name = some .recording ∧ e = .form name [tag])
    (env : Environment F) (hBudget : 0 < budget) : ¬ Exceeds registry budget e env := by
  have hDepth : ∃ effect, HasEffect registry e 1 effect := by
    rcases hInert with hData | ⟨name, tag, hName, rfl⟩
    · by_cases hHost : ∃ value, e = .host value
      · obtain ⟨value, rfl⟩ := hHost
        exact ⟨_, .host value⟩
      · exact ⟨_, .data hData (not_exists.1 hHost)⟩
    · exact ⟨_, .recording hName tag⟩
  obtain ⟨effect, hEffect⟩ := hDepth
  rw [Exceeds, hEffect.exceeds_iff]
  omega

/-- A budget is transparent. A larger one changes nothing but how far an evaluation gets that was cut
off, and one as large as the expression is enough. What counts are the turns into conditions,
selected branches and operands. What is inert needs a budget of one however deep it is, and what
stands in a branch that is not selected makes no difference. -/
theorem evaluateWithin_extendsTo_and_exceeds_iff (hBasic : registry.IsBasic) (e : Expr F)
    (env : Environment F) :
    (∀ budget budget', budget ≤ budget' →
      (evaluateWithin registry budget e env).ExtendsTo (evaluateWithin registry budget' e env)) ∧
    (∀ budget, e.size ≤ budget → ¬ Exceeds registry budget e env) ∧
    (∀ budget, Exceeds registry budget e env ↔
      ∃ path reached, path.length = budget ∧ Reaches registry env e path reached) ∧
    ((registry.dispatch? e = none ∨
        ∃ name tag, registry.get? name = some .recording ∧ e = .form name [tag]) →
      ∀ budget, 0 < budget → ¬ Exceeds registry budget e env) ∧
    ∀ name condition choice consequent alternative consequent' alternative',
      registry.get? name = some .conditional → HasValue registry env condition (.bool choice) →
      (if choice then consequent else alternative) = (if choice then consequent' else alternative') →
      ∀ budget, Exceeds registry budget (.form name [condition, consequent, alternative]) env ↔
        Exceeds registry budget (.form name [condition, consequent', alternative']) env := by
  refine ⟨fun budget budget' hLe => evaluateWithin_extendsTo hBasic hLe e env, ?enough,
    fun budget => exceeds_iff_exists_reaches hBasic,
    fun hInert budget hBudget => not_exceeds_of_inert hInert env hBudget, ?unselected⟩
  case enough =>
    intro budget hSize hExceeds
    obtain ⟨path, reached, rfl, hReaches⟩ := (exceeds_iff_exists_reaches hBasic).1 hExceeds
    exact absurd hReaches.length_lt_size (Nat.not_lt_of_le hSize)
  case unselected =>
    intro name condition choice consequent alternative consequent' alternative' hName hSelects
      hSame budget
    have hReplaces : Replaces registry env Eq (.form name [condition, consequent, alternative])
        (.form name [condition, consequent', alternative']) :=
      .branch hName hSelects hSelects rfl (hSame ▸ .refl _)
    rw [Exceeds, Exceeds, hReplaces.evaluateWithin_eq hBasic]

/-- The condition fits into a budget of three, and the branch does not: it reaches the tag of the
inner condition by three turns. With four the evaluation goes on from the tag recorded first. -/
theorem evaluateWithin_extendsTo_and_exceeds_iff_operand_of_branch :
    let bind (name : Text) (operand : Datum) : Datum :=
      .form "bind!".toList [.symbol name, operand]
    let touch (tag : Datum) : Datum := .form "touch!".toList [tag]
    let unselected : Datum := bind ['z'] (bind ['z'] (bind ['z'] (.int 1)))
    let inner : Datum := .conditional (touch (.bool false)) unselected (touch (.int 2))
    let e : Datum := .conditional (bind ['y'] (touch (.bool true))) (bind ['x'] inner) unselected
    let left : Environment Empty := Environment.empty.bindName ['x'] (.int 2)
    let tags : List Datum := [.bool true, .bool false, .int 2]
    Registry.IsBasic (F := Empty) .effectful ∧
      Reaches .effectful .empty e [.branch, .operand, .condition] (touch (.bool false)) ∧
      Exceeds .effectful 3 e .empty ∧
      (∀ budget, 3 ≤ budget →
        [.bool true] <+: (evaluateWithin .effectful budget e .empty).recorded) ∧
      ∀ budget, 4 ≤ budget →
        evaluateWithin .effectful budget e .empty = ⟨tags, .ok (.int 2, left)⟩ := by
  intro bind touch unselected inner e left tags
  have hIf : (Registry.effectful (F := Empty)).get? ['i', 'f'] = some .conditional := rfl
  have hBind : (Registry.effectful (F := Empty)).get? "bind!".toList = some .binding := rfl
  have hSelects : HasValue .effectful .empty (bind ['y'] (touch (.bool true))) (.bool true) :=
    ⟨2, _, _, rfl⟩
  have hReaches : Reaches .effectful .empty e [.branch, .operand, .condition]
      (touch (.bool false)) :=
    .turn (.branch hIf hSelects _ _) (.turn (.operand hBind _ _)
      (.turn (.condition hIf _ _ _) (.refl _)))
  obtain ⟨hExtends, -, hExceeds, -, -⟩ :=
    evaluateWithin_extendsTo_and_exceeds_iff Registry.isBasic_effectful e .empty
  have hThree : Exceeds .effectful 3 e .empty := (hExceeds 3).2 ⟨_, _, rfl, hReaches⟩
  refine ⟨Registry.isBasic_effectful, hReaches, hThree, fun budget hLe => ?_, fun budget hLe => ?_⟩
  · exact (hExtends 3 budget hLe).isPrefix_recorded
  · exact (hExtends 4 budget hLe).eq_of_not_exceeded nofun

end Lisp
