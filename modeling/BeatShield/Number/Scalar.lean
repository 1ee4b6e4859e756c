/-! # Scalar — the arithmetic a run is computed in

    The rules of the game are written once, over any `Scalar`.

      * `Float` is the arithmetic that is played: binary64, with its
        rounding, infinities and NaN.
      * `Rat` is the same arithmetic without rounding, in which the laws
        of the rules hold exactly.

    Constants are written as decimals (`0.9`), so that each arithmetic
    reads them in its own way: the nearest double, or 9/10 itself.
    `Trig` is kept apart because the rationals have no cosine: what uses
    it holds for every choice of the three values. -/

namespace BeatShield

/-- The ways in which a number cannot be brought into another form. -/
inductive NumberError where
  /-- An integer that rounds to 2^1024 or more has no double. -/
  | intTooLarge
  /-- An infinity has no integer part. -/
  | infinityToInt
  /-- NaN has no integer part. -/
  | nanToInt
  /-- A division whose divisor is zero. -/
  | divisionByZero
  /-- An infinite angle has no direction. -/
  | infiniteAngle
  /-- An integer written with more digits than a reader accepts. -/
  | tooManyDigits (count : Nat)
  deriving DecidableEq, Repr

/-- The wording of a number error. -/
def NumberError.message : NumberError → String
  | .intTooLarge => "int too large to convert to float"
  | .infinityToInt => "cannot convert float infinity to integer"
  | .nanToInt => "cannot convert float NaN to integer"
  | .divisionByZero => "float division by zero"
  | .infiniteAngle => "math domain error"
  | .tooManyDigits count =>
      "Exceeds the limit (4300 digits) for integer string conversion: value has "
        ++ count.repr ++ " digits; use sys.set_int_max_str_digits() to increase the limit"

/-- An arithmetic with an order, decimal constants, and conversions from
    and to the integers. -/
class Scalar (α : Type) extends
    Add α, Sub α, Mul α, Div α, Neg α, LT α, LE α, OfScientific α where
  /-- Whether one number is below another can be decided. -/
  decLt : (x y : α) → Decidable (x < y)
  /-- Whether one number is at most another can be decided. -/
  decLe : (x y : α) → Decidable (x ≤ y)
  /-- The number nearest to an integer, unless it is out of range. -/
  ofInt : Int → Except NumberError α
  /-- The integer part, rounding towards zero. -/
  truncate : α → Except NumberError Int

namespace Scalar

variable {α : Type} [Scalar α]

instance (x y : α) : Decidable (x < y) := decLt x y

instance (x y : α) : Decidable (x ≤ y) := decLe x y

/-- Zero of either sign; NaN is not zero. -/
def IsZero (x : α) : Prop := x ≤ 0.0 ∧ 0.0 ≤ x

instance (x : α) : Decidable (IsZero x) :=
  inferInstanceAs (Decidable (_ ∧ _))

/-- A quotient, refused when the divisor is zero. -/
def divide (x y : α) : Except NumberError α :=
  if IsZero y then .error .divisionByZero else .ok (x / y)

/-- The first of two numbers, unless the second is greater.  A NaN in the
    second place is therefore dropped. -/
def atLeast (x y : α) : α := if x < y then y else x

/-- The first of two numbers, unless the second is smaller.  A NaN in the
    first place therefore stays. -/
def atMost (x y : α) : α := if y < x then y else x

end Scalar

/-- The angles and the circle that directions are drawn on. -/
class Trig (α : Type) where
  /-- Half a turn, in radians. -/
  pi : α
  /-- The cosine of an angle in radians. -/
  cos : α → α
  /-- The sine of an angle in radians. -/
  sin : α → α

/-! ## The exact arithmetic -/

instance : Scalar Rat where
  decLt := inferInstance
  decLe := inferInstance
  ofInt n := .ok n
  truncate x := .ok (x.num.tdiv x.den)

end BeatShield
