import BeatShield.Decimal.Basic
import BeatShield.Number.Binary

/-! # Shortest — the fewest digits that read back

    A positive double `m * 2 ^ e` is what every real of a small interval
    around it rounds to.  Its shortest decimal is the point of that
    interval on the coarsest grid of powers of ten that meets it.

      * `Surroundings` holds the interval over one denominator, so that
        all comparisons are of whole numbers.  Its ends belong to it when
        `m` is even, because ties go to even mantissas.
      * On each grid only the two neighbours of the value are tried: if
        any point of the grid lies in the interval, one of them does.
      * Of two hits the nearer is taken, an exact tie going to the even
        digit. -/

namespace BeatShield.Decimal

/-- A positive double and the reals that round to it: the value is
    `value / unit`, and the interval runs from `low / unit` to
    `high / unit`. -/
structure Surroundings where
  low : Nat
  value : Nat
  high : Nat
  unit : Nat
  closed : Bool

namespace Surroundings

/-- The surroundings of `mantissa * 2 ^ exponent`.  Below a power of two
    the doubles are twice as dense, so there the lower half-gap is half as
    wide, except at the least exponent. -/
def ofDouble (mantissa : Nat) (exponent : Int) : Surroundings :=
  let scale := twoTo exponent.toNat
  let lowerGap := if mantissa = twoTo 52 ∧ exponent ≠ -1074 then 1 else 2
  { low := (4 * mantissa - lowerGap) * scale
    value := 4 * mantissa * scale
    high := (4 * mantissa + 2) * scale
    unit := 4 * twoTo (-exponent).toNat
    closed := mantissa % 2 = 0 }

/-- Whether `point * 10 ^ grid` rounds to the double. -/
def contains (s : Surroundings) (grid : Int) (point : Nat) : Bool :=
  let x := point * tenTo grid.toNat * s.unit
  let scale := tenTo (-grid).toNat
  if s.closed then s.low * scale ≤ x && x ≤ s.high * scale
  else s.low * scale < x && x < s.high * scale

/-- The nearer of the value's two neighbours among the multiples of
    `10 ^ grid` that round to the double. -/
def onGrid (s : Surroundings) (grid : Int) : Option Nat :=
  let numerator := s.value * tenTo (-grid).toNat
  let denominator := s.unit * tenTo grid.toNat
  let down := numerator / denominator
  let up := down + 1
  if s.contains grid down && s.contains grid up then
    some (roundHalfEven numerator denominator)
  else if s.contains grid down then some down
  else if s.contains grid up then some up
  else none

/-- The exponent of the value's leading digit.  The value is at least
    `10 ^ (-330)`, so shifting it by 330 places leaves a whole part whose
    digits can be counted. -/
def leadingExponent (s : Surroundings) : Int :=
  (digits (s.value * tenTo 330 / s.unit)).length - 331

end Surroundings

/-- The shortest decimal that reads back as `mantissa * 2 ^ exponent`.
    Seventeen digits always suffice, so the default is never taken. -/
def shortest (mantissa : Nat) (exponent : Int) : Decimal :=
  let s := Surroundings.ofDouble mantissa exponent
  let lead := s.leadingExponent
  ((List.range 17).findSome? fun (more : Nat) =>
    let grid := lead - more
    (s.onGrid grid).map fun point => ⟨point, grid⟩).getD ⟨0, 0⟩

end BeatShield.Decimal
