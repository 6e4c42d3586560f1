/-! From numbers to characters where bytes or escapes give the numbers. A character is
never half of a surrogate pair, so each half that stands alone is replaced. -/

namespace Lisp

/-- The character of a code point. Half of a surrogate pair that stands alone is no
character, and the replacement character takes its place. -/
def charOfCode (n : Nat) : Char := if 0xD800 ≤ n ∧ n < 0xE000 then '\ufffd' else Char.ofNat n

/-- The character that two units of sixteen bits stand for together, if they are the two
halves of a surrogate pair. -/
def surrogatePair? (high low : Nat) : Option Char :=
  if 0xD800 ≤ high ∧ high < 0xDC00 ∧ 0xDC00 ≤ low ∧ low < 0xE000 then
    some (Char.ofNat (0x10000 + (high - 0xD800) * 0x400 + (low - 0xDC00)))
  else none

end Lisp
