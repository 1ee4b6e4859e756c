import BeatShield.Decimal.Basic
import BeatShield.Text.Split

/-! # DecimalDigit — the digits of all scripts, and integers written in them

    Every script that counts in tens has ten consecutive code points for
    its digits (general category Nd of Unicode 14), so a digit is known by
    the zero it follows.

    `integer?` reads an integer as a person may type it: a sign, digits of
    any script, single underscores between digits, and blanks around. -/

namespace BeatShield.Text

/-- The code points of the digit zero, script by script. -/
def digitZeros : List Nat := [
    0x30, 0x660, 0x6f0, 0x7c0, 0x966, 0x9e6, 0xa66, 0xae6, 0xb66, 0xbe6, 0xc66, 0xce6, 0xd66,
    0xde6, 0xe50, 0xed0, 0xf20, 0x1040, 0x1090, 0x17e0, 0x1810, 0x1946, 0x19d0, 0x1a80, 0x1a90,
    0x1b50, 0x1bb0, 0x1c40, 0x1c50, 0xa620, 0xa8d0, 0xa900, 0xa9d0, 0xa9f0, 0xaa50, 0xabf0,
    0xff10, 0x104a0, 0x10d30, 0x11066, 0x110f0, 0x11136, 0x111d0, 0x112f0, 0x11450, 0x114d0,
    0x11650, 0x116c0, 0x11730, 0x118e0, 0x11950, 0x11c50, 0x11d50, 0x11da0, 0x16a60, 0x16ac0,
    0x16b50, 0x1d7ce, 0x1d7d8, 0x1d7e2, 0x1d7ec, 0x1d7f6, 0x1e140, 0x1e2f0, 0x1e950, 0x1fbf0]

/-- The value of a decimal digit of any script. -/
def digitValue? (c : Char) : Option Nat :=
  (digitZeros.find? fun z => z ≤ c.toNat && c.toNat < z + 10).map (c.toNat - ·)

/-- Whether a character is a decimal digit of any script. -/
def isDecimalDigit (c : Char) : Bool := (digitValue? c).isSome

/-- The blanks that may surround an integer: the six of ASCII text, and
    every blank beyond ASCII. -/
def isIntegerMargin (c : Char) : Bool :=
  c == ' ' || ('\t' ≤ c && c ≤ '\r') || (0x7f < c.toNat && isBlank c)

/-- The values of digits, of which single underscores may part two. -/
def digitValues? : List Char → Option (List Nat)
  | [] => none
  | [c] => (digitValue? c).map ([·])
  | c :: '_' :: rest => do return (← digitValue? c) :: (← digitValues? rest)
  | c :: rest => do return (← digitValue? c) :: (← digitValues? rest)

/-- The integer that a text spells, if it spells one. -/
def integer? (cs : List Char) : Option Int := do
  let body := ((cs.dropWhile isIntegerMargin).reverse.dropWhile isIntegerMargin).reverse
  let (negative, written) := match body with
    | '+' :: rest => (false, rest)
    | '-' :: rest => (true, rest)
    | _ => (false, body)
  let values ← digitValues? written
  if Decimal.digitLimit < values.length then none
  else
    let size : Nat := values.foldl (fun n d => 10 * n + d) 0
    return if negative then -(size : Int) else size

end BeatShield.Text
