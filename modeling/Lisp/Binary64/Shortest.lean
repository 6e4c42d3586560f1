import Lisp.Binary64.Basic
import Lisp.Text.Basic

/-! The shortest decimal that reads back as a given floating-point number. All comparisons
are between whole numbers, so nothing is lost to rounding. -/

namespace Lisp.Binary64

/-- The digits of a decimal fraction: the value is `0.digits * 10 ^ order`. -/
structure Decimal where
  digits : Text
  order : Int
  deriving DecidableEq, Repr

/-- The number of digits before the point of a positive quotient. It is negative where
zeros follow the point. -/
def decimalOrder (num den : Nat) : Int :=
  let guess : Int := (Nat.toDigits 10 num).length - (Nat.toDigits 10 den).length
  if den * Nat.pow 10 guess.toNat ≤ num * Nat.pow 10 (-guess).toNat then guess + 1 else guess

/-- A positive finite number and the ends of the interval of reals that round to it, all
as multiples of one unit, which is a quotient. The ends round to the number if its
mantissa is even. -/
structure Interval where
  low : Nat
  value : Nat
  high : Nat
  closed : Bool
  unitNum : Nat
  unitDen : Nat

/-- The interval around `mantissa * 2 ^ exponent`. Below a power of two the next number is
only half as far away. -/
def Interval.around (mantissa : Nat) (exponent : Int) : Interval where
  low := if mantissa = Nat.pow 2 52 ∧ exponent ≠ -1074 then 4 * mantissa - 1 else 4 * mantissa - 2
  value := 4 * mantissa
  high := 4 * mantissa + 2
  closed := mantissa % 2 = 0
  unitNum := Nat.pow 2 exponent.toNat
  unitDen := 4 * Nat.pow 2 (-exponent).toNat

/-- The multiple of `10 ^ place` that is nearest to the value among those that lie in the
interval. The two neighbours of the value are all there is to try. -/
def Interval.onGrid? (r : Interval) (place : Int) : Option Nat :=
  let scale := r.unitNum * Nat.pow 10 (-place).toNat
  let den := r.unitDen * Nat.pow 10 place.toNat
  let below := r.value * scale / den
  let inside (n : Nat) : Bool :=
    if r.closed then r.low * scale ≤ n * den && n * den ≤ r.high * scale
    else r.low * scale < n * den && n * den < r.high * scale
  let gapBelow := r.value * scale - below * den
  let gapAbove := (below + 1) * den - r.value * scale
  let first := if gapBelow < gapAbove ∨ (gapBelow = gapAbove ∧ below % 2 = 0) then below else below + 1
  let second := if first = below then below + 1 else below
  if inside first then some first else if inside second then some second else none

/-- The fewest digits that round to the number, and of these the nearest to it. Seventeen
digits are always enough. -/
def shortest (mantissa : Nat) (exponent : Int) : Decimal :=
  let r := Interval.around mantissa exponent
  let order := decimalOrder (r.value * r.unitNum) r.unitDen
  let found := (List.range 17).findSome? fun (i : Nat) =>
    let place := order - (i : Int) - 1
    (r.onGrid? place).map fun n => (n, place)
  match found with
  | some (n, place) =>
    let digits := Nat.toDigits 10 n
    let kept := (digits.reverse.dropWhile (· == '0')).reverse
    ⟨kept, digits.length + place⟩
  | none => ⟨['0'], 1⟩

/-- The text of a decimal: positional for the orders from -3 to 16, with at least one digit
after the point, and else with an exponent of at least two digits and its sign. -/
def Decimal.text (d : Decimal) : Text :=
  if -4 < d.order ∧ d.order ≤ 16 then
    if d.order ≤ 0 then '0' :: '.' :: List.replicate (-d.order).toNat '0' ++ d.digits
    else
      let whole := d.order.toNat
      if whole < d.digits.length then d.digits.take whole ++ '.' :: d.digits.drop whole
      else d.digits ++ List.replicate (whole - d.digits.length) '0' ++ ['.', '0']
  else
    let exponent := d.order - 1
    let sign := if exponent < 0 then '-' else '+'
    let places := Nat.toDigits 10 exponent.natAbs
    let padded := if places.length < 2 then '0' :: places else places
    let significand :=
      match d.digits with
      | first :: second :: rest => first :: '.' :: second :: rest
      | digits => digits
    significand ++ 'e' :: sign :: padded

/-- The text of a number, the shortest that reads back. -/
def text : Binary64 → Text
  | .finite negative mantissa exponent =>
    let unsigned := if mantissa = 0 then ['0', '.', '0'] else (shortest mantissa exponent).text
    if negative then '-' :: unsigned else unsigned
  | .infinite negative => if negative then "-inf".toList else "inf".toList
  | .notANumber => "nan".toList

end Lisp.Binary64
