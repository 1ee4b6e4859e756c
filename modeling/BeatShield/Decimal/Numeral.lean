import BeatShield.Decimal.Basic

/-! # Numeral — decimal literals and the doubles they name

    A numeral is a sign, then either digits with an optional point and an
    optional power of ten, or one of the words `inf`, `infinity` and `nan`
    in any case.  At least one digit stands before or after the point.
    Blanks of the ASCII set may surround it.

    `Numeral.read` is that grammar, in ASCII alone.  `Numeral.toFloat` is
    the nearest double, with ties to even. -/

namespace BeatShield

/-- What a decimal literal stands for: `coefficient * 10 ^ exponent`, or a
    value beyond the finite ones. -/
inductive Numeral where
  | finite (negative : Bool) (coefficient : Nat) (exponent : Int)
  | infinity (negative : Bool)
  | nan
  deriving DecidableEq, Repr

namespace Numeral

/-- The blanks that may surround a numeral. -/
def isMargin (c : Char) : Bool :=
  c == ' ' || ('\t' ≤ c && c ≤ '\r')

/-- The text without the blanks around it. -/
def strip (cs : List Char) : List Char :=
  ((cs.dropWhile isMargin).reverse.dropWhile isMargin).reverse

/-- The sign in front of a text, and the rest. -/
def sign : List Char → Bool × List Char
  | '+' :: rest => (false, rest)
  | '-' :: rest => (true, rest)
  | cs => (false, cs)

/-- A whole number: at least one digit and nothing else. -/
def wholeNumber? (cs : List Char) : Option Nat :=
  if cs.isEmpty || !cs.all Char.isDigit then none
  else some (Nat.ofDigitChars 10 cs 0)

/-- The power of ten after the digits: nothing, or `e` and a signed whole
    number. -/
def exponent? : List Char → Option Int
  | [] => some 0
  | c :: rest =>
      if c == 'e' || c == 'E' then
        let (negative, size) := sign rest
        (wholeNumber? size).map fun n => if negative then -(n : Int) else n
      else none

/-- Digits with an optional point and an optional power of ten. -/
def decimal? (negative : Bool) (cs : List Char) : Option Numeral :=
  let whole := cs.takeWhile Char.isDigit
  let afterWhole := cs.dropWhile Char.isDigit
  let (fraction, rest) := match afterWhole with
    | '.' :: tail => (tail.takeWhile Char.isDigit, tail.dropWhile Char.isDigit)
    | _ => ([], afterWhole)
  let all := whole ++ fraction
  if all.isEmpty then none
  else (exponent? rest).map fun e =>
    .finite negative (Nat.ofDigitChars 10 all 0) (e - fraction.length)

/-- The numeral that a text spells, if it spells one. -/
def read (cs : List Char) : Option Numeral :=
  let (negative, body) := sign (strip cs)
  let word := body.map Char.toLower
  if word = ['i', 'n', 'f'] ∨ word = ['i', 'n', 'f', 'i', 'n', 'i', 't', 'y'] then
    some (.infinity negative)
  else if word = ['n', 'a', 'n'] then some .nan
  else decimal? negative body

/-- The size of a finite numeral as a double.  Beyond 10^310 all sizes are
    infinite and below 10^(-330) all are zero, so that only exponents of
    modest size are ever raised to a power. -/
def magnitude (coefficient : Nat) (exponent : Int) : Float :=
  let lead := (Decimal.digits coefficient).length + exponent
  if coefficient = 0 ∨ lead < -330 then 0.0
  else if 310 < lead then 1.0 / 0.0
  else Float.ofScientific coefficient (exponent < 0) exponent.natAbs

/-- The nearest double. -/
def toFloat : Numeral → Float
  | .finite negative coefficient exponent =>
      let size := magnitude coefficient exponent
      if negative then -size else size
  | .infinity negative => if negative then -(1.0 / 0.0) else 1.0 / 0.0
  | .nan => 0.0 / 0.0

end Numeral

end BeatShield
