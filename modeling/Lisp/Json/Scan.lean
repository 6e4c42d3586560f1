import Lisp.Json.Error
import Lisp.Json.Value
import Lisp.Text.CodePoint
import Lisp.Text.Hex

/-! The parts of a JSON text that hold no other values: strings, numbers and words. Every
one of them takes at least one character. -/

namespace Lisp.Json

/-- The part of a text that is still to be read, and the offset at which it begins. -/
structure Cursor where
  offset : Nat
  rest : Text
  deriving DecidableEq, Repr

namespace Cursor

/-- The cursor after `count` more characters. -/
def skip (c : Cursor) (count : Nat) : Cursor := ⟨c.offset + count, c.rest.drop count⟩

/-- White space between the parts of a JSON text. -/
def isSpace (c : Char) : Bool := c = ' ' || c = '\t' || c = '\n' || c = '\r'

/-- The cursor after white space. -/
def skipSpace (c : Cursor) : Cursor := c.skip (c.rest.takeWhile isSpace).length

@[simp] theorem length_skip (c : Cursor) (count : Nat) :
    (c.skip count).rest.length = c.rest.length - count := by
  simp [skip]

theorem length_skipSpace_le (c : Cursor) : c.skipSpace.rest.length ≤ c.rest.length := by
  simp [skipSpace]

end Cursor

/-- The value of four hexadecimal digits. -/
def hexUnit? (a b c d : Char) : Option Nat := do
  let digits ← [a, b, c, d].mapM Text.hexValue?
  return digits.foldl (fun n d => 16 * n + d) 0

/-- The characters with an escape by letter. -/
def letterEscape? (c : Char) : Option Char :=
  if c = '\x22' ∨ c = '\\' ∨ c = '/' then some c
  else if c = 'n' then some '\n'
  else if c = 'r' then some '\r'
  else if c = 't' then some '\t'
  else if c = 'b' then some '\x08'
  else if c = 'f' then some '\x0c'
  else none

/-- One character of a string that is written as an escape, and how many characters the
escape takes after its backslash. `offset` is that of the backslash. An escape by number
is wrong at its letter, and so is one at the very end of the text. -/
def escape (start offset : Nat) (s : Text) : Except ParseError (Char × Nat) :=
  match s with
  | [] => .error (.unterminatedString start)
  | 'u' :: a :: b :: c :: d :: more@(_ :: _) =>
    match hexUnit? a b c d with
    | none => .error (.invalidUnicodeEscape (offset + 1))
    | some unit =>
      if 0xD800 ≤ unit ∧ unit < 0xDC00 then
        match more with
        | '\\' :: 'u' :: a :: b :: c :: d :: _ :: _ =>
          match hexUnit? a b c d with
          | none => .error (.invalidUnicodeEscape (offset + 7))
          | some low =>
            match surrogatePair? unit low with
            | some c => .ok (c, 11)
            | none => .ok (charOfCode unit, 5)
        | _ => .ok (charOfCode unit, 5)
      else .ok (charOfCode unit, 5)
  | 'u' :: _ => .error (.invalidUnicodeEscape (offset + 1))
  | c :: _ =>
    match letterEscape? c with
    | some c => .ok (c, 1)
    | none => .error (.invalidEscape offset)

/-- The rest of a string that began at `start`, after the characters `read`, the newest
first. -/
def stringFrom (start : Nat) (read : List Char) (offset : Nat) (s : Text) :
    Except ParseError (Text × Cursor) :=
  match s with
  | [] => .error (.unterminatedString start)
  | c :: s =>
    if c = '\x22' then .ok (read.reverse, ⟨offset + 1, s⟩)
    else if c = '\\' then
      match escape start offset s with
      | .error err => .error err
      | .ok (c, count) => stringFrom start (c :: read) (offset + 1 + count) (s.drop count)
    else if c.toNat < 0x20 then .error (.controlCharacter offset)
    else stringFrom start (c :: read) (offset + 1) s
termination_by s.length

theorem length_of_stringFrom {start offset : Nat} {read : List Char} {s t : Text} {c : Cursor}
    (hString : stringFrom start read offset s = .ok (t, c)) : c.rest.length < s.length := by
  fun_induction stringFrom start read offset s with
  | case1 => simp at hString
  | case2 => simp at hString; simp [← hString.2]
  | case3 => simp at hString
  | case4 _ _ _ _ _ _ _ ih => have := ih hString; simp at this ⊢; omega
  | case5 => simp at hString
  | case6 _ _ _ _ _ _ _ ih => have := ih hString; simp at this ⊢; omega

/-- The parts of the text of a number: its integer part with the sign, the digits after
the point, and the exponent. -/
structure NumberText where
  negative : Bool
  whole : Text
  fraction : Text
  exponent : Option (Bool × Text)
  length : Nat

/-- The integer part that a text begins with. A zero in front ends it. -/
def wholePart : Text → Text
  | '0' :: _ => ['0']
  | s => s.takeWhile Char.isDigit

/-- The digits after a point that a text begins with. -/
def fractionPart : Text → Text
  | '.' :: s => s.takeWhile Char.isDigit
  | _ => []

/-- The exponent that a text begins with, as its sign and its digits, and how many
characters it takes. It counts only with a digit. -/
def exponentPart (s : Text) : Option (Bool × Text) × Nat :=
  if s.head? = some 'e' ∨ s.head? = some 'E' then
    let unsigned := Numeral.unsigned s.tail
    let digits := unsigned.takeWhile Char.isDigit
    if digits.isEmpty then (none, 0)
    else (some (s.tail.head? = some '-', digits), s.length - unsigned.length + digits.length)
  else (none, 0)

/-- The number that a text begins with. There is none without an integer part, and a point
counts only with a digit after it. -/
def numberText? (s : Text) : Option NumberText :=
  let negative := s.head? = some '-'
  let sign := if negative then 1 else 0
  let whole := wholePart (s.drop sign)
  let fraction := fractionPart (s.drop (sign + whole.length))
  let point := if fraction.isEmpty then 0 else 1
  let length := sign + whole.length + point + fraction.length
  let exponent := exponentPart (s.drop length)
  if whole.isEmpty then none
  else some ⟨negative, whole, fraction, exponent.1, length + exponent.2⟩

/-- The number that its parts stand for. It is an integer if it has neither fraction nor
exponent. -/
def NumberText.value (n : NumberText) : Except ParseError Value :=
  let number (digits : Text) : Nat := Nat.ofDigitChars 10 digits 0
  match n.fraction, n.exponent with
  | [], none =>
    if n.whole.length ≤ Numeral.maxDigits then
      .ok (.int (if n.negative then -(number n.whole) else number n.whole))
    else .error (.longInteger n.whole.length)
  | fraction, exponent =>
    let power : Int :=
      match exponent with
      | some (true, digits) => -(number digits)
      | some (false, digits) => number digits
      | none => 0
    .ok (.real (.ofDecimal n.negative (number (n.whole ++ fraction)) (power - fraction.length)))

/-- The values that are written as words. -/
def words : List (Text × Value) :=
  [("null".toList, .null), ("true".toList, .bool true), ("false".toList, .bool false),
    ("NaN".toList, .real .notANumber), ("Infinity".toList, .real (.infinite false)),
    ("-Infinity".toList, .real (.infinite true))]

/-- A value that holds no other values, at a cursor. -/
def scalar (c : Cursor) : Except ParseError (Value × Cursor) :=
  match c.rest with
  | '\x22' :: s => do
    let (text, c) ← stringFrom c.offset [] (c.offset + 1) s
    return (.string text, c)
  | s =>
    match words.find? (·.1.isPrefixOf s) with
    | some (word, v) => .ok (v, c.skip word.length)
    | none =>
      match numberText? s with
      | some n => n.value.map (·, c.skip n.length)
      | none => .error (.expectedValue c.offset)

theorem length_numberText_pos {s : Text} {n : NumberText} (hNumber : numberText? s = some n) :
    0 < n.length ∧ s ≠ [] := by
  constructor
  · simp only [numberText?, Option.ite_none_left_eq_some, Option.some.injEq,
      List.isEmpty_iff] at hNumber
    have := List.length_pos_iff.2 hNumber.1
    rw [← hNumber.2]
    dsimp only
    omega
  · rintro rfl
    simp [numberText?, wholePart] at hNumber

theorem length_of_scalar {c rest : Cursor} {v : Value} (hScalar : scalar c = .ok (v, rest)) :
    rest.rest.length < c.rest.length := by
  unfold scalar at hScalar
  split at hScalar
  · rename_i s hRest
    cases hString : stringFrom c.offset [] (c.offset + 1) s with
    | error => simp [hString, bind, Except.bind] at hScalar
    | ok p =>
      have := length_of_stringFrom hString
      simp [hString, bind, Except.bind, pure, Except.pure] at hScalar
      simp [hRest, ← hScalar.2]
      omega
  · split at hScalar
    · rename_i word v' hFind
      have hWord := List.mem_of_find?_eq_some hFind
      have hPrefix := List.find?_some hFind
      simp only [Except.ok.injEq, Prod.mk.injEq] at hScalar
      rw [← hScalar.2]
      have hPos : 0 < word.length := by
        simp [words] at hWord
        rcases hWord with h | h | h | h | h | h <;> simp [h.1]
      have hLength : word.length ≤ c.rest.length := (List.isPrefixOf_iff_prefix.1 hPrefix).length_le
      simp
      omega
    · split at hScalar
      · rename_i n hNumber
        have ⟨hPos, hRest⟩ := length_numberText_pos hNumber
        cases hValue : n.value with
        | error => simp [hValue, Except.map] at hScalar
        | ok v =>
          simp [hValue, Except.map] at hScalar
          have := List.length_pos_iff.2 hRest
          simp [← hScalar.2]
          omega
      · simp at hScalar

end Lisp.Json
