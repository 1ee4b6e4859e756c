import BeatShield.Text.Printable

/-! # Quoted — a text between quote marks

    The quoted form of a text stands between single quote marks, or
    between double ones if it holds a single mark and no double one.  The
    mark in use and the backslash are written after a backslash, tab, line
    feed and carriage return by their letters, and every other unprintable
    character by its code point in two, four or eight hexadecimal
    digits. -/

namespace BeatShield.Text

/-- The single quote mark. -/
def singleMark : Char := '\x27'

/-- The double quote mark. -/
def doubleMark : Char := '\x22'

/-- The mark that a text is quoted with. -/
def quoteMark (cs : List Char) : Char :=
  if cs.contains singleMark && !cs.contains doubleMark then doubleMark else singleMark

/-- A code point in hexadecimal, with zeros in front up to a width. -/
def hexadecimal (width n : Nat) : List Char :=
  let digits := Nat.toDigits 16 n
  List.replicate (width - digits.length) '0' ++ digits

/-- One character of a quoted text. -/
def quoteChar (mark c : Char) : List Char :=
  if c == mark || c == '\\' then ['\\', c]
  else if c == '\t' then ['\\', 't']
  else if c == '\n' then ['\\', 'n']
  else if c == '\r' then ['\\', 'r']
  else if isPrintable c then [c]
  else if c.toNat < 0x100 then ['\\', 'x'] ++ hexadecimal 2 c.toNat
  else if c.toNat < 0x10000 then ['\\', 'u'] ++ hexadecimal 4 c.toNat
  else ['\\', 'U'] ++ hexadecimal 8 c.toNat

/-- The quoted form of a text. -/
def quote (cs : List Char) : List Char :=
  let mark := quoteMark cs
  mark :: cs.flatMap (quoteChar mark) ++ [mark]

/-- The quoted form of a string. -/
def quoted (s : String) : String := String.ofList (quote s.toList)

end BeatShield.Text
