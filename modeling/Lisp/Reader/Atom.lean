import Lisp.Expr.Basic
import Lisp.Reader.Error

/-! The classes of atoms. A text that is no numeral, no boolean and not the empty list by
name is a symbol, whatever it holds. -/

namespace Lisp

/-- The booleans by their names. -/
def booleanNamed? (s : Text) : Option Bool :=
  if s = "#t".toList ∨ s = "#true".toList then some true
  else if s = "#f".toList ∨ s = "#false".toList then some false
  else none

/-- The name of the empty list, in any case. -/
def isNilName (s : Text) : Bool := s.map Char.toLower == "nil".toList

/-- What an atom stands for: a number if it is a numeral, a boolean or the empty list
by name, and else a symbol. -/
def readAtom {F : Type} (s : Text) : Except LongNumeral (Expr F) :=
  if Numeral.isNumeral s then
    let count := (Numeral.unsigned s).length
    if count ≤ Numeral.maxDigits then .ok (.int (Numeral.value s))
    else .error ⟨count⟩
  else
    match booleanNamed? s with
    | some b => .ok (.bool b)
    | none => .ok (if isNilName s then .nil else .symbol s)

end Lisp
