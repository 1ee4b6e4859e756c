import BeatShield.Decimal.Shortest
import BeatShield.Number.Binary

/-! # Text of numbers — how a double is written

    Two written forms of a double.

      * `Decimal.text` is the shortest text that reads back: positional
        while the leading digit's exponent is from -4 to 15, with a power
        of ten beyond (`1e+16`, `1e-05`), and always with a point or a
        power of ten, so that it never looks like an integer.
      * `Decimal.places n` has exactly `n` digits after the point, rounded
        on the exact value with halves going to even. -/

namespace BeatShield.Decimal

/-- The decisions of a positional-or-scientific form: the exponents of
    the leading digit that are written positionally, and the least number
    of digits of a written exponent. -/
structure Style where
  leastPositional : Int
  mostPositional : Int
  exponentWidth : Nat

/-- Positional from `0.0001` to just below `1e+16`; exponents have at
    least two digits. -/
def Style.standard : Style := ⟨-4, 15, 2⟩

/-- Digits with a point inserted after `whole` of them, and with the zeros
    that this needs on either side. -/
def positional (digits : List Char) (whole : Int) : List Char :=
  if whole ≤ 0 then
    '0' :: '.' :: List.replicate (-whole).toNat '0' ++ digits
  else
    let front := digits.take whole.toNat
    let back := digits.drop whole.toNat
    front ++ List.replicate (whole.toNat - digits.length) '0'
      ++ '.' :: (if back.isEmpty then ['0'] else back)

/-- Digits with the point after the first, and a power of ten. -/
def scientific (style : Style) (digits : List Char) (exponent : Int) : List Char :=
  digits.take 1
    ++ (if digits.length ≤ 1 then [] else '.' :: digits.drop 1)
    ++ ['e', if exponent < 0 then '-' else '+']
    ++ paddedDigits style.exponentWidth exponent.natAbs

/-- Trailing zeros carry nothing once the place of the point is known. -/
def dropTrailingZeros (digits : List Char) : List Char :=
  (digits.reverse.dropWhile (· == '0')).reverse

/-- A positive decimal in the given style. -/
def Style.write (style : Style) (d : Decimal) : List Char :=
  let all := digits d.coefficient
  let whole : Int := all.length + d.exponent
  let kept := dropTrailingZeros all
  if style.leastPositional ≤ whole - 1 ∧ whole - 1 ≤ style.mostPositional then
    positional kept whole
  else scientific style kept (whole - 1)

/-- The shortest text of a double that reads back. -/
def text (x : Float) : String :=
  String.ofList <| match Binary.ofFloat x with
  | .nan => ['n', 'a', 'n']
  | .infinite negative => signed negative ['i', 'n', 'f']
  | .finite negative mantissa exponent =>
      signed negative <|
        if mantissa = 0 then ['0', '.', '0']
        else Style.standard.write (shortest mantissa exponent)

/-- The text of a double with a fixed number of places. -/
def places (count : Nat) (x : Float) : String :=
  String.ofList <| match Binary.ofFloat x with
  | .nan => ['n', 'a', 'n']
  | .infinite negative => signed negative ['i', 'n', 'f']
  | .finite negative mantissa exponent =>
      let steps := roundHalfEven
        (mantissa * twoTo exponent.toNat * tenTo count) (twoTo (-exponent).toNat)
      signed negative <|
        digits (steps / tenTo count) ++ '.' :: paddedDigits count (steps % tenTo count)

end BeatShield.Decimal
