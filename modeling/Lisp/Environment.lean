import Lisp.Bindings
import Lisp.Expr.Print

/-! Chains of frames. An environment never changes, and binding makes a longer chain. Two
environments are the same if they show the same bindings. -/

namespace Lisp

/-- Why a name cannot be bound or looked up. Both keep the expression that was given
for the name. -/
inductive NameError (F : Type) where
  | notSymbol (name : Expr F)
  | unbound (name : Expr F)

namespace NameError

variable {F : Type} [HostValue F]

/-- What is wrong. The text of the name may be what cannot be written. -/
def message : NameError F → Except (PrintError F) Text
  | notSymbol name => do
    let text ← name.shown
    return "Cannot bind ".toList ++ text ++ ": not a symbol".toList
  | unbound name => do
    let text ← name.plain
    return "Cannot lookup unbound symbol ".toList ++ text

end NameError

/-- A frame binds names, each to one value. -/
abbrev Frame (F : Type) := Bindings (Expr F)

/-- A chain of frames. The innermost frame is what was bound last, and a name means
what the nearest frame that binds it says. Binding makes a new chain around the old
one, which stays as it was. -/
structure Environment (F : Type) where
  inner : Frame F
  outer : List (Frame F)

namespace Environment

variable {F : Type}

/-- One frame that binds nothing. -/
def empty : Environment F := ⟨.empty, []⟩

/-- All frames, the innermost first. -/
def frames (env : Environment F) : List (Frame F) := env.inner :: env.outer

/-- A new innermost frame around an environment, or around nothing. -/
def enclose (frame : Frame F) : Option (Environment F) → Environment F
  | some env => ⟨frame, env.frames⟩
  | none => ⟨frame, []⟩

/-- The symbol that an expression is. -/
def nameOf (name : Expr F) : Except (NameError F) Text :=
  match name with
  | .symbol s => .ok s
  | e => .error (.notSymbol e)

/-- The frame with these bindings. The first name that is no symbol is an error. -/
def frameOf (bindings : List (Expr F × Expr F)) : Except (NameError F) (Frame F) := do
  let entries ← bindings.mapM fun (name, value) => return (← nameOf name, value)
  return .ofList entries

/-- An environment with these bindings in one frame around another environment. -/
def new (bindings : List (Expr F × Expr F)) (outer : Option (Environment F)) :
    Except (NameError F) (Environment F) :=
  (frameOf bindings).map (enclose · outer)

/-- The environment with one more frame that binds one symbol. -/
def bindName (env : Environment F) (name : Text) (value : Expr F) : Environment F :=
  enclose (.ofList [(name, value)]) (some env)

/-- The environment with one more frame that binds one name. -/
def bind (env : Environment F) (name value : Expr F) : Except (NameError F) (Environment F) :=
  (nameOf name).map (env.bindName · value)

/-- The environment with one more frame that binds all of these names, or as it is if
there are none. -/
def bindMany (env : Environment F) (bindings : List (Expr F × Expr F)) :
    Except (NameError F) (Environment F) :=
  if bindings.isEmpty then .ok env else new bindings (some env)

/-- The nearest frame that binds a name, and how far out it is. -/
def find? (env : Environment F) (name : Expr F) : Option (Nat × Frame F) :=
  match name with
  | .symbol s => go s 0 env.frames
  | _ => none
where
  go (s : Text) (depth : Nat) : List (Frame F) → Option (Nat × Frame F)
    | [] => none
    | frame :: rest => if frame.contains s then some (depth, frame) else go s (depth + 1) rest

/-- What a name is bound to. Only symbols are bound. -/
def get? (env : Environment F) (name : Expr F) : Option (Expr F) :=
  match name with
  | .symbol s => env.frames.findSome? (·.get? s)
  | _ => none

/-- What a name is bound to. A name without a binding is an error. -/
def lookup (env : Environment F) (name : Expr F) : Except (NameError F) (Expr F) :=
  match env.get? name with
  | some value => .ok value
  | none => .error (.unbound name)

/-- What a name is bound to, or nothing if it is not bound. That it is not bound is put into
words even here, so a name without a text is an error. -/
def lookup? [HostValue F] (env : Environment F) (name : Expr F) :
    Except (PrintError F) (Option (Expr F)) :=
  match env.lookup name with
  | .ok value => .ok (some value)
  | .error err => err.message.map fun _ => none

def contains (env : Environment F) (name : Expr F) : Bool := (env.get? name).isSome

/-- All visible bindings in one map, in the order in which the names were first bound
from the outermost frame on. -/
def flatten (env : Environment F) : Bindings (Expr F) :=
  env.frames.foldr (fun frame merged => merged.insertAll frame.entries) .empty

/-- The visible names in order. -/
def names (env : Environment F) : List Text := env.flatten.names

/-- The number of visible names. -/
def size (env : Environment F) : Nat := env.flatten.size

/-- The same visible names with equal values, however they came to be bound. -/
def same [BEq F] (a b : Environment F) : Bool := a.flatten.same b.flatten

/-- What an environment may be compared with. -/
inductive Comparand (F : Type) where
  | environment (env : Environment F)
  | bindings (b : Bindings (Expr F))

/-- Only environments are equal to an environment, not even the map of its visible bindings. -/
def equals [BEq F] (env : Environment F) : Comparand F → Bool
  | .environment other => env.same other
  | .bindings _ => false

/-- Why an operation on an environment is refused. -/
inductive Refusal where
  | immutable
  | noDigest
  deriving DecidableEq, Repr

namespace Refusal

def message : Refusal → Text
  | immutable => "Environment is immutable; use bind() to extend it".toList
  | noDigest => "unhashable type: 'Environment'".toList

end Refusal

/-- To replace a part of an environment in place is always refused. -/
def assign (_env : Environment F) (_part : Text) : Except Refusal (Environment F) :=
  .error .immutable

/-- To take a digest of an environment is always refused, though it is compared by what it binds. -/
def digest (_env : Environment F) : Except Refusal Nat := .error .noDigest

/-- The visible bindings between braces, each value as it is shown. -/
def text [HostValue F] (env : Environment F) : Except (PrintError F) Text := do
  let items ← env.flatten.entries.mapM fun (name, value) => do
    let shown ← value.shown
    return name ++ ':' :: ' ' :: shown
  return '{' :: (", ".toList.intercalate items) ++ ['}']

/-- The text that shows that this is an environment, and its bindings. -/
def shown [HostValue F] (env : Environment F) : Except (PrintError F) Text := do
  let bindings ← env.text
  return "<Environment ".toList ++ bindings ++ ['>']

end Environment

end Lisp
