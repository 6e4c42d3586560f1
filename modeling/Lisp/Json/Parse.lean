import Lisp.Bindings
import Lisp.Json.Scan

/-! Reading JSON with a stack of open containers in place of recursion. Every step takes
at least one character, which is why it ends. -/

namespace Lisp.Json

/-- A container that is not closed yet: an array with the items so far, the newest first,
or an object with the members so far and the name of the member under way. A name that comes
again keeps its first place and takes the new value. -/
inductive Container where
  | array (items : List Value)
  | object (members : List (Text × Value)) (name : Text)

/-- What comes next in a text: a value, or what follows a value that is complete. -/
inductive Expected where
  | value
  | after (v : Value)

/-- The name of a member with its colon, and the cursor at its value. -/
def memberName (c : Cursor) : Except ParseError (Text × Cursor) :=
  match c.rest with
  | '\x22' :: s =>
    match stringFrom c.offset [] (c.offset + 1) s with
    | .error err => .error err
    | .ok (name, c) =>
      let c := c.skipSpace
      match c.rest with
      | ':' :: _ => .ok (name, (c.skip 1).skipSpace)
      | _ => .error (.expectedColon c.offset)
  | _ => .error (.expectedName c.offset)

theorem length_of_memberName {c rest : Cursor} {name : Text}
    (hName : memberName c = .ok (name, rest)) : rest.rest.length < c.rest.length := by
  unfold memberName at hName
  split at hName
  · rename_i s hRest
    split at hName
    · simp at hName
    · rename_i name' c' hString
      have hShorter := length_of_stringFrom hString
      simp only at hName
      split at hName
      · simp only [Except.ok.injEq, Prod.mk.injEq] at hName
        have h₁ := (c'.skipSpace.skip 1).length_skipSpace_le
        have h₂ := c'.skipSpace.length_skip 1
        have h₃ := c'.length_skipSpace_le
        rw [hRest, ← hName.2, List.length_cons]
        omega
      · simp at hName
  · simp at hName

/-- Read on inside these containers, the innermost first. Nesting costs no stack. -/
def parseFrom (stack : List Container) (expected : Expected) (c : Cursor) :
    Except ParseError Value :=
  match expected with
  | .value =>
    match _ : c.rest with
    | '[' :: s =>
      let c' := (Cursor.mk (c.offset + 1) s).skipSpace
      match c'.rest with
      | ']' :: _ => parseFrom stack (.after (.array [])) (c'.skip 1)
      | _ => parseFrom (.array [] :: stack) .value c'
    | '\x7b' :: s =>
      let c' := (Cursor.mk (c.offset + 1) s).skipSpace
      match c'.rest with
      | '\x7d' :: _ => parseFrom stack (.after (.object [])) (c'.skip 1)
      | _ =>
        match _ : memberName c' with
        | .error err => .error err
        | .ok (name, c') => parseFrom (.object [] name :: stack) .value c'
    | _ =>
      match _ : scalar c with
      | .error err => .error err
      | .ok (v, c') => parseFrom stack (.after v) c'
  | .after v =>
    let c' := c.skipSpace
    match stack, _ : c'.rest with
    | [], [] => .ok v
    | [], _ :: _ => .error (.extraData c'.offset)
    | .array items :: stack, ']' :: _ =>
      parseFrom stack (.after (.array (v :: items).reverse)) (c'.skip 1)
    | .array items :: stack, ',' :: _ =>
      parseFrom (.array (v :: items) :: stack) .value (c'.skip 1).skipSpace
    | .object members name :: stack, '\x7d' :: _ =>
      parseFrom stack (.after (.object (Bindings.put name v members))) (c'.skip 1)
    | .object members name :: stack, ',' :: _ =>
      match _ : memberName (c'.skip 1).skipSpace with
      | .error err => .error err
      | .ok (name', c') => parseFrom (.object (Bindings.put name v members) name' :: stack) .value c'
    | _ :: _, _ => .error (.expectedComma c'.offset)
termination_by c.rest.length
decreasing_by
  all_goals grind [= Cursor.length_skip, Cursor.length_skipSpace_le,
    → length_of_memberName, → length_of_scalar]

/-- The value that a text stands for. White space may stand around it. -/
def parse (source : Text) : Except ParseError Value :=
  parseFrom [] .value (Cursor.mk 0 source).skipSpace

end Lisp.Json
