import Lisp.Text.Basic

/-! Decimal numerals. Reading and writing share one limit on the number of digits, and
what is written reads back as the same number. -/

namespace Lisp.Numeral

/-- The most digits that a number may have where it is read or written. Leading
zeros count and the sign does not. -/
def maxDigits : Nat := 4300

/-- What is wrong with a numeral of `count` digits, more than may be read. -/
def tooLongToRead (count : Nat) : Text :=
  "Exceeds the limit (4300 digits) for integer string conversion: value has ".toList ++
    Nat.toDigits 10 count ++
    " digits; use sys.set_int_max_str_digits() to increase the limit".toList

/-- What is wrong with a number of more digits than may be written. -/
def tooLongToWrite : Text :=
  ("Exceeds the limit (4300 digits) for integer string conversion; " ++
    "use sys.set_int_max_str_digits() to increase the limit").toList

/-- The decimal digits of a number, without limit. -/
def digits (n : Nat) : Text := Nat.toDigits 10 n

/-- The decimal text of an integer, without limit. -/
def text (i : Int) : Text := if i < 0 then '-' :: digits i.natAbs else digits i.natAbs

/-- The decimal text of an integer, if it is not too long. -/
def write? (i : Int) : Option Text :=
  if (digits i.natAbs).length ≤ maxDigits then some (text i) else none

/-- A numeral without its sign. -/
def unsigned : Text → Text
  | '+' :: s => s
  | '-' :: s => s
  | s => s

/-- At most one sign, and then digits, at least one. -/
def isNumeral (s : Text) : Bool := !(unsigned s).isEmpty && (unsigned s).all Char.isDigit

/-- The number that a numeral stands for. -/
def value (s : Text) : Int :=
  let n := Nat.ofDigitChars 10 (unsigned s) 0
  if s.head? = some '-' then -n else n

theorem isDigit_of_mem_digits {n : Nat} {c : Char} (hMem : c ∈ digits n) : c.isDigit = true :=
  Nat.isDigit_of_mem_toDigits (by decide) (by decide) hMem

theorem digits_ne_nil (n : Nat) : digits n ≠ [] := by
  unfold digits
  rw [Nat.toDigits_eq_if (by decide)]
  split <;> simp

theorem unsigned_digits (n : Nat) : unsigned (digits n) = digits n := by
  cases hDigits : digits n with
  | nil => rfl
  | cons c s =>
    have hDigit : c.isDigit = true := isDigit_of_mem_digits (n := n) (by simp [hDigits])
    unfold unsigned
    split
    · rename_i h; cases h; simp at hDigit
    · rename_i h; cases h; simp at hDigit
    · rfl

/-- A written number is a numeral and stands for that number. -/
theorem value_of_write? {i : Int} {s : Text} (hWrite : write? i = some s) :
    isNumeral s = true ∧ value s = i := by
  simp only [write?, Option.ite_none_right_eq_some, Option.some.injEq] at hWrite
  obtain ⟨-, rfl⟩ := hWrite
  unfold text
  have hOf : Nat.ofDigitChars 10 (digits i.natAbs) 0 = i.natAbs :=
    Nat.ofDigitChars_toDigits (by decide) (by decide)
  have hAll : (digits i.natAbs).all Char.isDigit = true := by
    simpa using fun c => isDigit_of_mem_digits
  have hHead : (digits i.natAbs).head? ≠ some '-' := by
    intro h
    have := isDigit_of_mem_digits (List.mem_of_mem_head? h)
    simp at this
  by_cases hNeg : i < 0
  · refine ⟨by simp [hNeg, isNumeral, unsigned, digits_ne_nil, hAll], ?_⟩
    simp only [if_pos hNeg, value, unsigned, hOf, List.head?_cons, if_true]
    omega
  · refine ⟨by simp [hNeg, isNumeral, unsigned_digits, digits_ne_nil, hAll], ?_⟩
    simp only [if_neg hNeg, value, unsigned_digits, hOf, if_neg hHead]
    omega

end Lisp.Numeral
