/-! Floating-point numbers as exact quotients, and the rounding of a decimal to the
nearest of them. Ties go to the even mantissa. -/

namespace Lisp

/-- A binary floating-point number with 53 bits of precision. A finite one has the
absolute value `mantissa * 2 ^ exponent`, where the mantissa is below `2 ^ 53` and the
exponent at least `-1074`. -/
inductive Binary64 where
  | finite (negative : Bool) (mantissa : Nat) (exponent : Int)
  | infinite (negative : Bool)
  | notANumber
  deriving DecidableEq, Repr

namespace Binary64

/-- The quotient of two numbers, rounded to the nearest whole number, and to the even one
of two that are equally near. -/
def roundQuotient (num den : Nat) : Nat :=
  let floor := num / den
  let twice := 2 * (num % den)
  if twice < den then floor
  else if den < twice then floor + 1
  else if floor % 2 = 0 then floor else floor + 1

/-- The exponent of the greatest power of two that is not above a quotient. -/
def binaryOrder (num den : Nat) : Int :=
  let guess : Int := num.log2 - den.log2
  if num * Nat.pow 2 (-guess).toNat < den * Nat.pow 2 guess.toNat then guess - 1 else guess

/-- The number nearest to a positive quotient. A quotient that rounds to `2 ^ 1024` or
more is infinite. -/
def ofQuotient (negative : Bool) (num den : Nat) : Binary64 :=
  let exponent := max (binaryOrder num den - 52) (-1074)
  let mantissa := roundQuotient (num * Nat.pow 2 (-exponent).toNat) (den * Nat.pow 2 exponent.toNat)
  let (mantissa, exponent) :=
    if mantissa = Nat.pow 2 53 then (Nat.pow 2 52, exponent + 1) else (mantissa, exponent)
  if 971 < exponent then .infinite negative else .finite negative mantissa exponent

/-- The number nearest to `digits * 10 ^ exponent`. Decimals far out of range are decided
by their size alone. -/
def ofDecimal (negative : Bool) (digits : Nat) (exponent : Int) : Binary64 :=
  let order : Int := (Nat.toDigits 10 digits).length + exponent
  if digits = 0 ∨ order < -330 then .finite negative 0 (-1074)
  else if 310 < order then .infinite negative
  else ofQuotient negative (digits * Nat.pow 10 exponent.toNat) (Nat.pow 10 (-exponent).toNat)

end Binary64

end Lisp
