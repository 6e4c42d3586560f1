import Lisp.Numeral
import Lisp.Text.Blank
import Lisp.Text.Digit

/-! Whole numbers as settings and options give them. They are written more freely than in
source text, with underscores and with white space around. A setting may use the digits of
any script, and an option may add a fraction of zero. -/

namespace Lisp.WholeNumber

/-- White space that may stand around a number: all of it but the four information
separators. -/
def isBlank (c : Char) : Bool := Text.isBlank c && !(0x1C ≤ c.toNat && c.toNat ≤ 0x1F)

/-- The digits of a number in order, where `digit?` gives the value of one. A single
underscore may stand between two digits. -/
def digitValues? (digit? : Char → Option Nat) : Text → Option (List Nat)
  | [] => none
  | [c] => (digit? c).map ([·])
  | c :: '_' :: s => do return (← digit? c) :: (← digitValues? digit? s)
  | c :: s => do return (← digit? c) :: (← digitValues? digit? s)

/-- The value of digits behind at most one sign. -/
def signed? (digit? : Char → Option Nat) (s : Text) : Option Int := do
  let values ← digitValues? digit? (Numeral.unsigned s)
  if values.length ≤ Numeral.maxDigits then
    let n := Text.digitsValue values
    some (if s.head? = some '-' then -n else n)
  else none

/-- The text before a point, if zeros follow the point, at least one and nothing else. -/
def withoutFraction (s : Text) : Text :=
  let whole := s.takeWhile (· != '.')
  let fraction := s.drop (whole.length + 1)
  if !fraction.isEmpty && fraction.all (· == '0') then whole else s

/-- The number that a setting gives, in the digits of any script. -/
def ofSetting? (s : Text) : Option Int := signed? Text.digitValue? (trimEnds isBlank s)

/-- The number that an option gives, in the digits of ASCII. A fraction of zero may follow
it. -/
def ofOption? (s : Text) : Option Int :=
  signed? Text.asciiDigitValue? (withoutFraction (trimEnds isBlank s))

end Lisp.WholeNumber
