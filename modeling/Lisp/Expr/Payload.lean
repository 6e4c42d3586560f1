import Lisp.Expr.Basic
import Lisp.Json.Value

/-! Atoms made from values of a host. What an atom may hold is checked where it is made, so that a
boolean never passes for an integer, and a name is always a text. -/

namespace Lisp

/-- The types of values. -/
inductive ValueType where
  | null
  | bool
  | int
  | real
  | string
  | array
  | object
  deriving DecidableEq, Repr

/-- The name of a type in messages. -/
def ValueType.name : ValueType → Text
  | null => "NoneType".toList
  | bool => "bool".toList
  | int => "int".toList
  | real => "float".toList
  | string => "str".toList
  | array => "list".toList
  | object => "dict".toList

/-- The type that a value has. A boolean is no integer, and neither is a number with a fraction. -/
def Json.Value.type : Value → ValueType
  | null => .null
  | bool _ => .bool
  | int _ => .int
  | real _ => .real
  | string _ => .string
  | array _ => .array
  | object _ => .object

/-- The atoms that hold something. -/
inductive AtomKind where
  | integer
  | boolean
  | symbol
  deriving DecidableEq, Repr

/-- The type of what an atom holds. -/
def AtomKind.type : AtomKind → ValueType
  | integer => .int
  | boolean => .bool
  | symbol => .string

/-- An atom of this kind cannot hold this payload. -/
structure PayloadError where
  kind : AtomKind
  payload : Json.Value

namespace PayloadError

/-- The type that is asked for, and the type that was given. -/
def message (err : PayloadError) : Text :=
  let asked :=
    match err.kind with
    | .integer => "Integer payload must be an "
    | .boolean => "Boolean payload must be a "
    | .symbol => "Symbol name must be a "
  asked.toList ++ err.kind.type.name ++ ", not ".toList ++ err.payload.type.name

end PayloadError

/-- What an atom holds. -/
def Expr.payload? {F : Type} : Expr F → Option Json.Value
  | .int value => some (.int value)
  | .bool value => some (.bool value)
  | .symbol name => some (.string name)
  | _ => none

namespace AtomKind

variable {F : Type} {kind : AtomKind} {payload : Json.Value}

/-- The atom of this kind with this payload, if it has the type for it. -/
def make (kind : AtomKind) (payload : Json.Value) : Except PayloadError (Expr F) :=
  match kind, payload with
  | integer, .int value => .ok (.int value)
  | boolean, .bool value => .ok (.bool value)
  | symbol, .string name => .ok (.symbol name)
  | kind, payload => .error ⟨kind, payload⟩

/-- An atom is made exactly of a payload of the type for it, and it holds this payload. -/
theorem make_eq_ok_iff {e : Expr F} :
    kind.make payload = .ok e ↔ payload.type = kind.type ∧ e.payload? = some payload := by
  cases kind <;> cases payload <;> cases e <;>
    simp [make, type, Json.Value.type, Expr.payload?, eq_comm]

/-- A payload that is refused has another type than the one that is asked for. -/
theorem make_eq_error_iff {err : PayloadError} :
    (kind.make payload : Except PayloadError (Expr F)) = .error err ↔
      err = ⟨kind, payload⟩ ∧ payload.type ≠ kind.type := by
  cases kind <;> cases payload <;> simp [make, type, Json.Value.type, eq_comm]

end AtomKind

end Lisp
