import Lisp.Expr.Print
import Lisp.Lexer
import Lisp.Reader.Atom

/-! The expressions whose text reads back. The printer writes every name as it is, so a name
must be one atom and belong to no other class of atoms. -/

namespace Lisp

/-- The text is one atom, the whole of it, and no dot of a dotted list. -/
def isAtomText (s : Text) : Bool :=
  !s.isEmpty && s.all isAtomChar && !(['#', '|'].isPrefixOf s) && s != ['.']

/-- The name is an atom that stands for a symbol. -/
def isReadableName (s : Text) : Bool :=
  isAtomText s && !Numeral.isNumeral s && (booleanNamed? s).isNone && !isNilName s

/-- The expression reads back: no host values, no integers that are too long to be written,
and no symbols but those with readable names. -/
def Expr.isReadable {F : Type} : Expr F → Bool
  | .int value => (Numeral.digits value.natAbs).length ≤ Numeral.maxDigits
  | .bool _ => true
  | .symbol name => isReadableName name
  | .nil => true
  | .pair head tail => head.isReadable && tail.isReadable
  | .host _ => false

/-- A readable name is read as the symbol of that name. -/
theorem readAtom_of_isReadableName {F : Type} {s : Text} (hName : isReadableName s = true) :
    (readAtom s : Except LongNumeral (Expr F)) = .ok (.symbol s) := by
  simp only [isReadableName, Bool.and_eq_true, Bool.not_eq_true', Option.isNone_iff_eq_none]
    at hName
  simp [readAtom, hName]

/-- A symbol comes only from an atom that is no numeral and names nothing else, and its name
is that atom. -/
theorem eq_of_readAtom_eq_symbol {F : Type} {s name : Text}
    (hAtom : (readAtom s : Except LongNumeral (Expr F)) = .ok (.symbol name)) :
    name = s ∧ Numeral.isNumeral s = false ∧ booleanNamed? s = none ∧ isNilName s = false := by
  unfold readAtom at hAtom
  split at hAtom
  · dsimp only at hAtom
    split at hAtom <;> simp at hAtom
  · split at hAtom
    · simp at hAtom
    · split at hAtom
      · simp at hAtom
      · simp_all

/-- A readable name is the text of one atom, and this atom is read as the symbol of that
name. -/
theorem isReadableName_iff {F : Type} {s : Text} :
    isReadableName s = true ↔
      isAtomText s = true ∧ (readAtom s : Except LongNumeral (Expr F)) = .ok (.symbol s) := by
  constructor
  · intro hName
    refine ⟨?_, readAtom_of_isReadableName hName⟩
    simp only [isReadableName, Bool.and_eq_true] at hName
    exact hName.1.1.1
  · rintro ⟨hText, hAtom⟩
    obtain ⟨-, hNumeral, hBoolean, hNil⟩ := eq_of_readAtom_eq_symbol hAtom
    simp [isReadableName, hText, hNumeral, hBoolean, hNil]

end Lisp
