/-! # Decimal — powers of ten and rounding in whole numbers

    `Decimal` is a whole coefficient times a power of ten.  Everything
    that turns a double into digits divides natural numbers, and the one
    rounding it needs is `roundHalfEven`: to the nearest whole number,
    with an exact half going to the even neighbour. -/

namespace BeatShield

/-- The number `coefficient * 10 ^ exponent`. -/
structure Decimal where
  coefficient : Nat
  exponent : Int
  deriving DecidableEq, Repr

namespace Decimal

/-- Whether a quotient is rounded down: it is below a half step, or at a
    half step above an even number. -/
def roundsDown (numerator denominator : Nat) : Bool :=
  let twice := 2 * (numerator % denominator)
  twice < denominator || (twice == denominator && numerator / denominator % 2 == 0)

/-- The whole number nearest to a quotient, a half going to the even one. -/
def roundHalfEven (numerator denominator : Nat) : Nat :=
  let down := numerator / denominator
  if roundsDown numerator denominator then down else down + 1

/-- The most digits that an integer may be written with to be read. -/
def digitLimit : Nat := 4300

/-- The decimal digits of a number, the highest first. -/
def digits (n : Nat) : List Char := Nat.toDigits 10 n

/-- The digits of a number, with zeros in front up to a least width. -/
def paddedDigits (width n : Nat) : List Char :=
  List.replicate (width - (digits n).length) '0' ++ digits n

/-- A minus sign in front of a negative number. -/
def signed (negative : Bool) (text : List Char) : List Char :=
  if negative then '-' :: text else text

/-- An integer in decimal notation. -/
def integer (n : Int) : List Char := signed (n < 0) (digits n.natAbs)

/-- An integer in decimal notation, as a string. -/
def integerText (n : Int) : String := String.ofList (integer n)

end Decimal

end BeatShield
