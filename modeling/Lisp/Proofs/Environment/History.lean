import Lisp.Proofs.Environment.Flatten

/-! Environments by the way they were made. Several of them may have been made around one, so the
ways to make them refer to those that are there already. Main statement: what a name is looked up
as along the chain, and what the merged map says of it, is what was bound to it last. -/

namespace Lisp

variable {F : Type}

/-- An environment, and the bindings that were made along its chain, the oldest first. -/
structure Built (F : Type) where
  env : Environment F
  made : List (Text × Expr F)

/-- One way to make an environment, where environments are there already and are numbered. -/
inductive Construction (F : Type) where
  | new (bindings : List (Expr F × Expr F)) (outer : Option Nat)
  | bind (receiver : Nat) (name value : Expr F)
  | bindMany (receiver : Nat) (bindings : List (Expr F × Expr F))

namespace Construction

open Environment (symbolEntries flatten_of_new flatten_of_bind flatten_of_bindMany)

/-- What is made, unless a name is no symbol or a number has no environment. -/
def result? (built : List (Built F)) : Construction F → Option (Built F)
  | new bindings outer => do
    let outer ← outer.mapM (built[·]?)
    let env ← (Environment.new bindings (outer.map Built.env)).toOption
    return ⟨env, outer.elim [] Built.made ++ symbolEntries bindings⟩
  | bind number name value => do
    let receiver ← built[number]?
    let env ← (receiver.env.bind name value).toOption
    return ⟨env, receiver.made ++ symbolEntries [(name, value)]⟩
  | bindMany number bindings => do
    let receiver ← built[number]?
    let env ← (receiver.env.bindMany bindings).toOption
    return ⟨env, receiver.made ++ symbolEntries bindings⟩

/-- The environments after one more attempt to make one. -/
def perform (built : List (Built F)) (construction : Construction F) : List (Built F) :=
  built ++ (construction.result? built).toList

/-- The environments that these attempts make one after the other. -/
def performAll (constructions : List (Construction F)) : List (Built F) :=
  constructions.foldl perform []

variable {built : List (Built F)} {construction : Construction F} {b : Built F}

theorem eq_ok_of_toOption {ε α : Type} {x : Except ε α} {a : α} (hSome : x.toOption = some a) :
    x = .ok a := by
  cases x <;> cases hSome
  rfl

/-- The merged map of what is made holds the bindings made along the chain. -/
theorem flatten_of_result? (hBuilt : ∀ b ∈ built, b.env.flatten = .ofList b.made)
    (hResult : construction.result? built = some b) : b.env.flatten = .ofList b.made := by
  have hReceiver {number : Nat} {receiver : Built F} (hAt : built[number]? = some receiver) :
      receiver.env.flatten = .ofList receiver.made := hBuilt receiver (List.mem_of_getElem? hAt)
  cases construction with
  | new bindings outer =>
      obtain ⟨outer', hOuter, hResult⟩ := Option.bind_eq_some_iff.1 hResult
      obtain ⟨env, hEnv, hMade⟩ := Option.bind_eq_some_iff.1 hResult
      cases hMade
      rw [flatten_of_new (eq_ok_of_toOption hEnv)]
      cases outer with
      | none =>
          cases hOuter
          rfl
      | some number =>
          obtain ⟨outer, hAt, rfl⟩ := Option.map_eq_some_iff.1 hOuter
          rw [Option.map_some, Option.elim_some, hReceiver hAt]
          exact (Bindings.insertAll_append ..).symm
  | bind number name value =>
      obtain ⟨receiver, hAt, hResult⟩ := Option.bind_eq_some_iff.1 hResult
      obtain ⟨env, hEnv, hMade⟩ := Option.bind_eq_some_iff.1 hResult
      cases hMade
      rw [flatten_of_bind (eq_ok_of_toOption hEnv), hReceiver hAt]
      exact (Bindings.insertAll_append ..).symm
  | bindMany number bindings =>
      obtain ⟨receiver, hAt, hResult⟩ := Option.bind_eq_some_iff.1 hResult
      obtain ⟨env, hEnv, hMade⟩ := Option.bind_eq_some_iff.1 hResult
      cases hMade
      rw [flatten_of_bindMany (eq_ok_of_toOption hEnv), hReceiver hAt]
      exact (Bindings.insertAll_append ..).symm

theorem performAll_concat (constructions : List (Construction F)) (construction : Construction F) :
    performAll (constructions ++ [construction]) =
      perform (performAll constructions) construction := by
  rw [performAll, List.foldl_append]
  rfl

theorem flatten_of_mem_performAll {constructions : List (Construction F)}
    (hMem : b ∈ performAll constructions) : b.env.flatten = .ofList b.made := by
  induction constructions using List.reverseRecOn generalizing b with
  | nil => cases hMem
  | append_singleton constructions construction ih =>
      rw [performAll_concat, perform, List.mem_append, Option.mem_toList] at hMem
      rcases hMem with hMem | hResult
      · exact ih hMem
      · exact flatten_of_result? (fun b hMem => ih hMem) hResult

/-- What is there already stays as it is. -/
theorem isPrefix_performAll (constructions later : List (Construction F)) :
    performAll constructions <+: performAll (constructions ++ later) := by
  induction later using List.reverseRecOn with
  | nil => simp
  | append_singleton later construction ih =>
      rw [← List.append_assoc, performAll_concat]
      exact ih.trans (List.prefix_append ..)

/-- Whatever environments are made, and however many around the same one, an environment answers for
each name with the binding of it that was made last along its chain. It lists each visible name
once, in the order in which they were first bound from the outermost frame on. What is made later
leaves it as it is. -/
theorem answers_newest_binding [HostValue F] (constructions : List (Construction F)) {number : Nat}
    {b : Built F} (hBuilt : (performAll constructions)[number]? = some b) :
    (∀ name, b.env.Answers name (b.made.reverse.lookup name)) ∧
      b.env.names.Nodup ∧ b.env.names = (b.made.map Prod.fst).eraseDups ∧
      b.env.size = b.env.names.length ∧
      ∀ later, (performAll (constructions ++ later))[number]? = some b := by
  have hFlatten := flatten_of_mem_performAll (List.mem_of_getElem? hBuilt)
  refine ⟨fun name => ?_, b.env.flatten.nodup_names, ?_, (List.length_map ..).symm,
    fun later => ?_⟩
  · have hAnswers := b.env.answers_get? name
    rwa [hFlatten, Bindings.get?_ofList] at hAnswers
  · rw [Environment.names, hFlatten, Bindings.names_ofList]
  · obtain ⟨more, hMore⟩ := isPrefix_performAll constructions later
    rw [← hMore, List.getElem?_append_left (List.getElem?_eq_some_iff.1 hBuilt).1]
    exact hBuilt

/-- Two environments are made around the second one, which is around the first. A name that is no
symbol makes none. -/
theorem answers_newest_binding_shared_chain :
    let x : Text := ['x']
    let y : Text := ['y']
    let z : Text := ['z']
    let constructions : List (Construction Empty) :=
      [.new [(.symbol x, .int 1), (.symbol y, .int 2)] none, .bind 0 (.symbol y) (.int 3),
        .bind 1 (.int 7) .nil, .bindMany 1 [(.symbol z, .int 4), (.symbol x, .int 5)]]
    let later : List (Construction Empty) := [.bind 1 (.symbol x) .nil, .bind 2 (.symbol z) .nil]
    ∃ b, (performAll constructions)[2]? = some b ∧ b.env.Answers x (some (.int 5)) ∧
      b.env.Answers y (some (.int 3)) ∧ b.env.Answers ['w'] none ∧ b.env.names = [x, y, z] ∧
      (performAll (constructions ++ later))[2]? = some b := by
  intro x y z constructions later
  obtain ⟨hAnswers, -, hNames, -, hLater⟩ :=
    @answers_newest_binding Empty _ constructions 2 _ rfl
  exact ⟨_, rfl, hAnswers x, hAnswers y, hAnswers ['w'], hNames.trans (by decide), hLater later⟩

end Construction

end Lisp
