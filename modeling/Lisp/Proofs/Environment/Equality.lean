import Lisp.Proofs.Environment.Flatten
import Lisp.Proofs.Expr.Equality
import Mathlib.Data.List.Perm.Subperm

/-! Equality of environments. Two of them are the same exactly if no name can tell them apart,
however they came to be, and binding respects this. So the laws of binding need to be checked only
name by name. -/

namespace Lisp

/-- There is no value in either, or there are two that are equal. -/
abbrev SameValue {β : Type} [BEq β] : Option β → Option β → Prop :=
  Option.Rel fun v w => (v == w) = true

namespace SameValue

variable {β : Type} [BEq β] {x y z : Option β}

theorem isSome_eq (hSame : SameValue x y) : x.isSome = y.isSome := by
  cases hSame <;> rfl

theorem refl [ReflBEq β] (x : Option β) : SameValue x x := by
  cases x with
  | none => exact .none
  | some v => exact .some BEq.rfl

theorem symm [PartialEquivBEq β] (hSame : SameValue x y) : SameValue y x := by
  cases hSame with
  | none => exact .none
  | some hEqual => exact .some (BEq.symm hEqual)

theorem trans [PartialEquivBEq β] (hFirst : SameValue x y) (hSecond : SameValue y z) :
    SameValue x z := by
  cases hFirst with
  | none => exact hSecond
  | some hEqual =>
      cases hSecond with
      | some hEqual' => exact .some (BEq.trans hEqual hEqual')

end SameValue

/-- Two maps are the same if each name has equal values in both, in whatever order. -/
theorem Bindings.same_iff {β : Type} [BEq β] {a b : Bindings β} :
    a.same b = true ↔ ∀ name, SameValue (a.get? name) (b.get? name) := by
  rw [same, Bool.and_eq_true, beq_iff_eq, List.all_eq_true]
  constructor
  · rintro ⟨hSize, hAll⟩ name
    have hGet {name : Text} {value : β} (hMem : (name, value) ∈ a.entries) :
        ∃ held, b.get? name = some held ∧ (value == held) = true := by
      have hEntry := hAll _ hMem
      split at hEntry
      · rename_i held hHeld
        exact ⟨held, hHeld, hEntry⟩
      · cases hEntry
    have hSubset : a.names ⊆ b.names := by
      intro name hMem
      obtain ⟨entry, hEntry, rfl⟩ := List.mem_map.1 hMem
      obtain ⟨held, hHeld, -⟩ := hGet hEntry
      exact contains_iff.1 (Option.isSome_iff_exists.2 ⟨held, hHeld⟩)
    have hPerm : a.names.Perm b.names :=
      (List.subperm_of_subset a.names_nodup hSubset).perm_of_length_le (by simp [hSize])
    cases hValue : a.get? name with
    | some value =>
        obtain ⟨held, hHeld, hEqual⟩ := hGet (get?_eq_some_iff.1 hValue)
        rw [hHeld]
        exact .some hEqual
    | none =>
        rw [← not_mem_names_iff, hPerm.mem_iff, not_mem_names_iff] at hValue
        rw [hValue]
        exact .none
  · intro hSame
    have hPerm : a.names.Perm b.names := by
      refine (List.perm_ext_iff_of_nodup a.names_nodup b.names_nodup).2 fun name => ?_
      rw [← contains_iff, ← contains_iff, contains, contains, (hSame name).isSome_eq]
    refine ⟨?_, fun entry hMem => ?_⟩
    · rw [← length_names, ← length_names, hPerm.length_eq]
    · have hEntry := hSame entry.1
      rw [get?_eq_some_iff.2 hMem] at hEntry
      cases hHeld : b.get? entry.1 with
      | some held =>
          rw [hHeld] at hEntry
          cases hEntry with
          | some hEqual => exact hEqual
      | none =>
          rw [hHeld] at hEntry
          cases hEntry

namespace Environment

variable {F : Type}

@[simp] theorem flatten_bindName (env : Environment F) (name : Text) (value : Expr F) :
    (env.bindName name value).flatten = env.flatten.insert name value :=
  flatten_enclose_ofList [(name, value)] (some env)

/-- These bindings made one by one, up to the first name that is no symbol. -/
def bindEach (env : Environment F) (bindings : List (Expr F × Expr F)) :
    Except (NameError F) (Environment F) :=
  bindings.foldlM (fun env binding => env.bind binding.1 binding.2) env

theorem exists_bindEach_append (env : Environment F) (entries : List (Text × Expr F))
    (rest : List (Expr F × Expr F)) :
    ∃ made : Environment F, env.bindEach (symbols entries ++ rest) = made.bindEach rest ∧
      made.flatten = env.flatten.insertAll entries := by
  induction entries generalizing env with
  | nil => exact ⟨env, rfl, rfl⟩
  | cons entry entries ih =>
      obtain ⟨made, hEach, hFlatten⟩ := ih (env.bindName entry.1 entry.2)
      rw [flatten_bindName] at hFlatten
      exact ⟨made, hEach, hFlatten⟩

theorem exists_bindMany_symbols (env : Environment F) (entries : List (Text × Expr F)) :
    ∃ whole, env.bindMany (symbols entries) = .ok whole ∧
      whole.flatten = env.flatten.insertAll entries := by
  have hMany : ∃ whole, env.bindMany (symbols entries) = .ok whole := by
    rw [bindMany, new, frameOf_symbols]
    split
    · exact ⟨_, rfl⟩
    · exact ⟨_, rfl⟩
  obtain ⟨whole, hWhole⟩ := hMany
  refine ⟨whole, hWhole, ?_⟩
  rw [flatten_of_bindMany hWhole, symbolEntries_symbols]

theorem exists_bindEach_symbols (env : Environment F) (entries : List (Text × Expr F)) :
    ∃ made, env.bindEach (symbols entries) = .ok made ∧
      made.flatten = env.flatten.insertAll entries := by
  obtain ⟨made, hEach, hFlatten⟩ := env.exists_bindEach_append entries []
  rw [List.append_nil] at hEach
  exact ⟨made, hEach, hFlatten⟩

/-- Binding all at once and binding one by one end in the same map, or fail at the same name. -/
theorem map_flatten_bindMany (env : Environment F) (bindings : List (Expr F × Expr F)) :
    (env.bindMany bindings).map flatten = (env.bindEach bindings).map flatten := by
  rcases frameOf_cases bindings with ⟨entries, rfl, -⟩ |
    ⟨before, name, value, after, rfl, hName, hFrame⟩
  · obtain ⟨whole, hMany, hWhole⟩ := env.exists_bindMany_symbols entries
    obtain ⟨made, hEach, hMade⟩ := env.exists_bindEach_symbols entries
    rw [hMany, hEach]
    exact congrArg Except.ok (hWhole.trans hMade.symm)
  · obtain ⟨made, hEach, -⟩ := env.exists_bindEach_append before ((name, value) :: after)
    have hStops : made.bindEach ((name, value) :: after) = .error (.notSymbol name) := by
      rw [bindEach, List.foldlM_cons, bind, hName]
      rfl
    have hNonempty : ¬ (symbols before ++ (name, value) :: after).isEmpty = true := by simp
    rw [hEach, hStops, bindMany, if_neg hNonempty, new, hFrame]
    rfl

/-- Both attempts make an environment, and the two are the same. -/
def MakeSame [BEq F] (x y : Except (NameError F) (Environment F)) : Prop :=
  ∃ a b, x = .ok a ∧ y = .ok b ∧ a.same b = true

section

variable [BEq F] {a b : Environment F}

theorem same_iff_get? :
    a.same b = true ↔ ∀ name, SameValue (a.flatten.get? name) (b.flatten.get? name) :=
  Bindings.same_iff

theorem same_iff_lookup :
    a.same b = true ↔ ∀ name,
      (∃ v w, a.lookup (.symbol name) = .ok v ∧ b.lookup (.symbol name) = .ok w ∧
        (v == w) = true) ∨
      (a.lookup (.symbol name) = .error (.unbound (.symbol name)) ∧
        b.lookup (.symbol name) = .error (.unbound (.symbol name))) := by
  rw [same_iff_get?]
  refine forall_congr' fun name => ?_
  rw [lookup_symbol, lookup_symbol]
  cases a.flatten.get? name <;> cases b.flatten.get? name <;> simp

theorem same_bindName {v w : Expr F} (hSame : a.same b = true) (hValue : (v == w) = true)
    (name : Text) : (a.bindName name v).same (b.bindName name w) = true := by
  rw [same_iff_get?] at hSame ⊢
  intro other
  rw [flatten_bindName, flatten_bindName, Bindings.get?_insert, Bindings.get?_insert]
  split
  · exact .some hValue
  · exact hSame other

end

variable [BEq F] [EquivBEq F] {a b : Environment F}

theorem equivalence_same : Equivalence fun a b : Environment F => a.same b = true where
  refl _ := same_iff_get?.2 fun _ => .refl _
  symm hSame := same_iff_get?.2 fun name => (same_iff_get?.1 hSame name).symm
  trans hFirst hSecond := same_iff_get?.2 fun name =>
    (same_iff_get?.1 hFirst name).trans (same_iff_get?.1 hSecond name)

theorem same_of_flatten_eq (hFlatten : a.flatten = b.flatten) : a.same b = true := by
  rw [same_iff_get?]
  intro name
  rw [hFlatten]
  exact .refl _

theorem bindName_comm (env : Environment F) {n m : Text} (hName : n ≠ m) (v w : Expr F) :
    ((env.bindName n v).bindName m w).same ((env.bindName m w).bindName n v) = true := by
  rw [same_iff_get?]
  intro other
  rw [flatten_bindName, flatten_bindName, flatten_bindName, flatten_bindName,
    Bindings.get?_insert, Bindings.get?_insert, Bindings.get?_insert, Bindings.get?_insert]
  by_cases hOther : other = m
  · rw [if_pos hOther, if_pos hOther, if_neg (hOther ▸ hName.symm)]
    exact .refl _
  · rw [if_neg hOther, if_neg hOther]
    exact .refl _

theorem bindName_bindName (env : Environment F) (n : Text) (v w : Expr F) :
    ((env.bindName n v).bindName n w).same (env.bindName n w) = true := by
  apply same_of_flatten_eq
  rw [flatten_bindName, flatten_bindName, flatten_bindName, Bindings.insert_insert]

theorem bindName_of_lookup {env : Environment F} {n : Text} {v : Expr F}
    (hLookup : env.lookup (.symbol n) = .ok v) : (env.bindName n v).same env = true := by
  rw [same_iff_get?]
  intro other
  rw [flatten_bindName, Bindings.get?_insert]
  split
  · rename_i hName
    subst hName
    rw [lookup_symbol] at hLookup
    cases hGet : env.flatten.get? other with
    | some value =>
        rw [hGet] at hLookup
        cases hLookup
        exact .refl _
    | none =>
        rw [hGet] at hLookup
        cases hLookup
  · exact .refl _

/-- Two environments are the same exactly if no name tells them apart, and binding equal values
makes the same of both. The order in which names are bound makes no difference, and neither does a
binding that is hidden by a later one or that says again what holds already. Binding many names at
once is binding them one by one. -/
theorem same_observational_congruence :
    (∀ a b : Environment F, a.same b = true ↔ ∀ name,
      (∃ v w, a.lookup (.symbol name) = .ok v ∧ b.lookup (.symbol name) = .ok w ∧
        (v == w) = true) ∨
      (a.lookup (.symbol name) = .error (.unbound (.symbol name)) ∧
        b.lookup (.symbol name) = .error (.unbound (.symbol name)))) ∧
    Equivalence (fun a b : Environment F => a.same b = true) ∧
    (∀ (a b : Environment F) name v w, a.same b = true → (v == w) = true →
      MakeSame (a.bind (.symbol name) v) (b.bind (.symbol name) w)) ∧
    ∀ env : Environment F,
      (∀ n m v w, n ≠ m →
        MakeSame (do (← env.bind (.symbol n) v).bind (.symbol m) w)
          (do (← env.bind (.symbol m) w).bind (.symbol n) v)) ∧
      (∀ n v w,
        MakeSame (do (← env.bind (.symbol n) v).bind (.symbol n) w) (env.bind (.symbol n) w)) ∧
      (∀ n v, env.lookup (.symbol n) = .ok v → MakeSame (env.bind (.symbol n) v) (.ok env)) ∧
      (∀ entries, MakeSame (env.bindMany (symbols entries)) (env.bindEach (symbols entries))) ∧
      ∀ bindings, (env.bindMany bindings).map flatten = (env.bindEach bindings).map flatten := by
  refine ⟨fun a b => same_iff_lookup, equivalence_same, ?congruence, fun env => ⟨?comm, ?again,
    ?current, ?many, env.map_flatten_bindMany⟩⟩
  case congruence =>
    intro a b name v w hSame hValue
    exact ⟨_, _, rfl, rfl, same_bindName hSame hValue name⟩
  case comm =>
    intro n m v w hName
    exact ⟨_, _, rfl, rfl, env.bindName_comm hName v w⟩
  case again =>
    intro n v w
    exact ⟨_, _, rfl, rfl, env.bindName_bindName n v w⟩
  case current =>
    intro n v hLookup
    exact ⟨_, _, rfl, rfl, bindName_of_lookup hLookup⟩
  case many =>
    intro entries
    obtain ⟨whole, hMany, hWhole⟩ := env.exists_bindMany_symbols entries
    obtain ⟨made, hEach, hMade⟩ := env.exists_bindEach_symbols entries
    exact ⟨whole, made, hMany, hEach, same_of_flatten_eq (hWhole.trans hMade.symm)⟩

/-- One of the two environments has a hidden binding and the other has a single frame. -/
theorem same_observational_congruence_hidden_binding :
    let x : Text := ['x']
    let y : Text := ['y']
    let a : Environment Empty :=
      ((Environment.empty.bindName x (.int 0)).bindName y (.int 2)).bindName x (.int 1)
    let b : Environment Empty := enclose (.ofList [(y, .int 2), (x, .int 1)]) none
    a.same b = true ∧ MakeSame (a.bind (.symbol y) .nil) (b.bind (.symbol y) .nil) ∧
      MakeSame (do (← a.bind (.symbol x) .nil).bind (.symbol y) (.int 3))
        (do (← a.bind (.symbol y) (.int 3)).bind (.symbol x) .nil) ∧
      MakeSame (a.bind (.symbol x) (.int 1)) (.ok a) := by
  intro x y a b
  obtain ⟨-, -, hCongruence, hLaws⟩ := same_observational_congruence (F := Empty)
  obtain ⟨hComm, -, hCurrent, -, -⟩ := hLaws a
  have hSame : a.same b = true := rfl
  exact ⟨hSame, hCongruence a b y .nil .nil hSame rfl, hComm x y .nil (.int 3) (by decide),
    hCurrent x (.int 1) rfl⟩

end Environment

end Lisp
