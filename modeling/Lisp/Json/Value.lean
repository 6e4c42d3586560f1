import Lisp.Binary64.Shortest
import Lisp.Numeral
import Lisp.Text.Quoted

/-! JSON values, and how messages show them. -/

namespace Lisp.Json

/-- A JSON value. Numbers without fraction and exponent are integers of any size. The
members of an object are in the order in which their names first came. -/
inductive Value where
  | null
  | bool (b : Bool)
  | int (i : Int)
  | real (x : Binary64)
  | string (s : Text)
  | array (items : List Value)
  | object (members : List (Text × Value))
  deriving Inhabited

namespace Value

/-- The member of an object with this name. -/
def member? (v : Value) (name : Text) : Option Value :=
  match v with
  | object members => (members.find? (·.1 = name)).map Prod.snd
  | _ => none

mutual

/-- The text that shows a value in a message. It is no JSON: names have capitals and
strings are quoted as the messages quote them. -/
def shown : Value → Text
  | null => "None".toList
  | bool b => (if b then "True" else "False").toList
  | int i => Numeral.text i
  | real x => x.text
  | string s => s.quoted
  | array items => '[' :: shownItems true items ++ [']']
  | object members => '\x7b' :: shownMembers true members ++ ['\x7d']

/-- The items of an array, set apart by commas. -/
def shownItems (first : Bool) : List Value → Text
  | [] => []
  | v :: rest => (if first then [] else [',', ' ']) ++ shown v ++ shownItems false rest

/-- The members of an object, set apart by commas. -/
def shownMembers (first : Bool) : List (Text × Value) → Text
  | [] => []
  | (name, v) :: rest =>
    (if first then [] else [',', ' ']) ++ name.quoted ++ [':', ' '] ++ shown v ++
      shownMembers false rest

end

/-- The text of a value in a message, bare for a string. -/
def plain : Value → Text
  | string s => s
  | v => shown v

end Value

end Lisp.Json
