import Lisp.Environment
import Lisp.Proofs.Environment.Bindings

/-! Walking the chain of frames and looking into the one map that they are merged into come to the
same. The walk stops at the nearest frame that binds a name, and the map takes the frames from the
outermost one on, so the value of the nearest frame is put in last. -/

namespace Lisp

variable {F : Type}

namespace Environment

theorem flatten_enclose (frame : Frame F) (outer : Option (Environment F)) :
    (enclose frame outer).flatten = (outer.elim .empty flatten).insertAll frame.entries := by
  cases outer <;> rfl

/-- A frame that collects entries does the same as entries inserted one by one. -/
theorem flatten_enclose_ofList (entries : List (Text × Expr F)) (outer : Option (Environment F)) :
    (enclose (.ofList entries) outer).flatten = (outer.elim .empty flatten).insertAll entries := by
  rw [flatten_enclose, Bindings.insertAll_entries_ofList]

/-- The nearest frame has the last word in the map as well. -/
theorem get?_symbol (env : Environment F) (name : Text) :
    env.get? (.symbol name) = env.flatten.get? name := by
  rw [get?, flatten]
  induction env.frames with
  | nil => rfl
  | cons frame frames ih =>
      rw [List.findSome?_cons, List.foldr_cons, Bindings.get?_insertAll_entries, ← ih]
      cases frame.get? name <;> rfl

theorem lookup_symbol (env : Environment F) (name : Text) :
    env.lookup (.symbol name) =
      (env.flatten.get? name).elim (.error (.unbound (.symbol name))) .ok := by
  rw [lookup, get?_symbol]
  cases env.flatten.get? name <;> rfl

theorem contains_iff_mem_names (env : Environment F) (name : Text) :
    env.contains (.symbol name) = true ↔ name ∈ env.names := by
  rw [contains, get?_symbol]
  exact Bindings.contains_iff

theorem find?_go_of_findSome? {name : Text} {frames : List (Frame F)} {value : Expr F}
    (hFound : frames.findSome? (·.get? name) = some value) (depth : Nat) :
    ∃ distance frame, find?.go name depth frames = some (depth + distance, frame) ∧
      frames[distance]? = some frame ∧ frame.get? name = some value := by
  induction frames generalizing depth with
  | nil => cases hFound
  | cons frame frames ih =>
      rw [List.findSome?_cons] at hFound
      rw [find?.go, Bindings.contains]
      cases hGet : frame.get? name with
      | some held =>
          rw [hGet] at hFound
          exact ⟨0, frame, rfl, rfl, hGet.trans hFound⟩
      | none =>
          rw [hGet] at hFound
          obtain ⟨distance, found, hGo, hAt, hValue⟩ := ih hFound (depth + 1)
          refine ⟨distance + 1, found, ?_, hAt, hValue⟩
          rw [← Nat.add_right_comm, Nat.add_assoc] at hGo
          exact hGo

theorem find?_go_of_findSome?_eq_none {name : Text} {frames : List (Frame F)}
    (hNone : frames.findSome? (·.get? name) = none) (depth : Nat) :
    find?.go name depth frames = none := by
  induction frames generalizing depth with
  | nil => rfl
  | cons frame frames ih =>
      rw [List.findSome?_cons] at hNone
      rw [find?.go, Bindings.contains]
      cases hGet : frame.get? name with
      | some held =>
          rw [hGet] at hNone
          cases hNone
      | none =>
          rw [hGet] at hNone
          exact ih hNone (depth + 1)

/-- The walk finds a frame of the chain that binds the name to its value, or none if it has no
value. -/
theorem find?_symbol (env : Environment F) (name : Text) :
    match env.get? (.symbol name) with
    | some value => ∃ depth frame, env.find? (.symbol name) = some (depth, frame) ∧
        env.frames[depth]? = some frame ∧ frame.get? name = some value
    | none => env.find? (.symbol name) = none := by
  cases hGet : env.get? (.symbol name) with
  | some value => simpa [find?] using find?_go_of_findSome? hGet 0
  | none => exact find?_go_of_findSome?_eq_none hGet 0

/-- All ways to ask an environment for a name come to this answer: the test for it, looking it up
with and without a default, the frame that is found, the merged map and the list of visible
names. -/
structure Answers [HostValue F] (env : Environment F) (name : Text) (answer : Option (Expr F)) :
    Prop where
  contains_eq : env.contains (.symbol name) = answer.isSome
  lookup_eq : env.lookup (.symbol name) = answer.elim (.error (.unbound (.symbol name))) .ok
  lookup?_getD : ∀ default,
    (env.lookup? (.symbol name)).map (·.getD default) = .ok (answer.getD default)
  find?_eq : match answer with
    | some value => ∃ depth frame, env.find? (.symbol name) = some (depth, frame) ∧
        env.frames[depth]? = some frame ∧ frame.get? name = some value
    | none => env.find? (.symbol name) = none
  get?_flatten : env.flatten.get? name = answer
  mem_names_iff : name ∈ env.names ↔ answer.isSome = true

theorem answers_get? [HostValue F] (env : Environment F) (name : Text) :
    env.Answers name (env.flatten.get? name) := by
  have hFind := env.find?_symbol name
  have hNames := env.contains_iff_mem_names name
  rw [contains] at hNames
  rw [get?_symbol] at hFind hNames
  refine ⟨?contains, env.lookup_symbol name, fun default => ?default, hFind, rfl, hNames.symm⟩
  case contains => rw [contains, get?_symbol]
  case default =>
    rw [lookup?, lookup_symbol]
    cases env.flatten.get? name <;> rfl

/-- Bindings whose names are symbols. -/
def symbols (entries : List (Text × Expr F)) : List (Expr F × Expr F) :=
  entries.map (Prod.map .symbol id)

/-- The bindings whose names are symbols. -/
def symbolEntries (bindings : List (Expr F × Expr F)) : List (Text × Expr F) :=
  bindings.filterMap fun
    | (.symbol name, value) => some (name, value)
    | _ => none

theorem symbolEntries_symbols (entries : List (Text × Expr F)) :
    symbolEntries (symbols entries) = entries := by
  rw [symbolEntries, symbols, List.filterMap_map]
  exact List.filterMap_some

/-- All names are symbols, or there is a first one that is none. -/
theorem mapM_nameOf_cases (bindings : List (Expr F × Expr F)) :
    (∃ entries, bindings = symbols entries ∧
      bindings.mapM (fun (name, value) => return (← nameOf name, value)) = .ok entries) ∨
      ∃ before name value after, bindings = symbols before ++ (name, value) :: after ∧
        nameOf name = .error (.notSymbol name) ∧
          bindings.mapM (fun (name, value) => return (← nameOf name, value)) =
            .error (.notSymbol name) := by
  induction bindings with
  | nil => exact .inl ⟨[], rfl, rfl⟩
  | cons binding bindings ih =>
      obtain ⟨name, value⟩ := binding
      rw [List.mapM_cons]
      cases name with
      | symbol name =>
          rcases ih with ⟨entries, rfl, hRest⟩ | ⟨before, other, held, after, rfl, hOther, hRest⟩
          · exact .inl ⟨(name, value) :: entries, rfl, by rw [hRest]; rfl⟩
          · refine .inr ⟨(name, value) :: before, other, held, after, rfl, hOther, ?_⟩
            rw [hRest]
            rfl
      | _ => exact .inr ⟨[], _, value, bindings, rfl, rfl, rfl⟩

/-- There is a frame, or there is a first name that is no symbol. -/
theorem frameOf_cases (bindings : List (Expr F × Expr F)) :
    (∃ entries, bindings = symbols entries ∧ frameOf bindings = .ok (.ofList entries)) ∨
      ∃ before name value after, bindings = symbols before ++ (name, value) :: after ∧
        nameOf name = .error (.notSymbol name) ∧ frameOf bindings = .error (.notSymbol name) := by
  rw [frameOf]
  rcases mapM_nameOf_cases bindings with
    ⟨entries, hEntries, hAll⟩ | ⟨before, name, value, after, hFirst, hName, hAll⟩
  · exact .inl ⟨entries, hEntries, by rw [hAll]; rfl⟩
  · exact .inr ⟨before, name, value, after, hFirst, hName, by rw [hAll]; rfl⟩

theorem frameOf_symbols (entries : List (Text × Expr F)) :
    frameOf (symbols entries) = .ok (.ofList entries) := by
  rcases frameOf_cases (symbols entries) with ⟨entries', hEntries, hFrame⟩ |
    ⟨before, name, value, after, hFirst, hName, -⟩
  · rw [hFrame, ← symbolEntries_symbols entries', ← hEntries, symbolEntries_symbols]
  · have hMem : (name, value) ∈ symbols entries := by
      rw [hFirst]
      exact List.mem_append_right _ (List.mem_cons_self ..)
    obtain ⟨entry, -, hEntry⟩ := List.mem_map.1 hMem
    cases hEntry
    cases hName

variable {env later : Environment F} {outer : Option (Environment F)}
  {bindings : List (Expr F × Expr F)} {name value : Expr F}

theorem bind_eq_new (env : Environment F) (name value : Expr F) :
    env.bind name value = new [(name, value)] (some env) := by
  cases name <;> rfl

/-- Making an environment inserts the new bindings into the merged map of the one around it. -/
theorem flatten_of_new (hNew : new bindings outer = .ok env) :
    env.flatten = (outer.elim .empty flatten).insertAll (symbolEntries bindings) := by
  rw [new] at hNew
  rcases frameOf_cases bindings with ⟨entries, rfl, hFrame⟩ | ⟨_, _, _, _, -, -, hFrame⟩
  · rw [hFrame] at hNew
    cases hNew
    rw [flatten_enclose_ofList, symbolEntries_symbols]
  · rw [hFrame] at hNew
    cases hNew

theorem flatten_of_bind (hBind : env.bind name value = .ok later) :
    later.flatten = env.flatten.insertAll (symbolEntries [(name, value)]) := by
  rw [bind_eq_new] at hBind
  exact flatten_of_new hBind

theorem flatten_of_bindMany (hBind : env.bindMany bindings = .ok later) :
    later.flatten = env.flatten.insertAll (symbolEntries bindings) := by
  rw [bindMany] at hBind
  split at hBind
  · rename_i hEmpty
    rw [List.isEmpty_iff] at hEmpty
    subst hEmpty
    cases hBind
    rfl
  · exact flatten_of_new hBind

end Environment

end Lisp
