/-! # Split — words, lines and pieces

    The blanks are the 25 characters with the Unicode property White_Space
    and the four ASCII information separators U+001C to U+001F.

      * `words` are the maximal blank-free pieces of a text.
      * `joinLines` reads the three line ends of text files as one.
      * `splitFirst` cuts once, at the first separator.
      * `pieces` cuts at every separator, so that there is one piece more
        than there are separators. -/

namespace BeatShield.Text

/-! ## Words and lines -/

/-- The code points of the blanks. -/
def blanks : List Nat := [
    0x09, 0x0a, 0x0b, 0x0c, 0x0d, 0x1c, 0x1d, 0x1e, 0x1f, 0x20, 0x85, 0xa0, 0x1680,
    0x2000, 0x2001, 0x2002, 0x2003, 0x2004, 0x2005, 0x2006, 0x2007, 0x2008, 0x2009, 0x200a,
    0x2028, 0x2029, 0x202f, 0x205f, 0x3000]

/-- Whether a character parts two words. -/
def isBlank (c : Char) : Bool := blanks.contains c.toNat

/-- The words of a text whose first word may still be open: `(w, ws)`
    stands for the word `w` being spelled, followed by the words `ws`. -/
abbrev Opening := List Char × List (List Char)

/-- The words once the first one is complete; an empty word is none. -/
def Opening.close : Opening → List (List Char)
  | ([], ws) => ws
  | (w, ws) => w :: ws

/-- Put one more character in front. -/
def Opening.push (c : Char) (o : Opening) : Opening :=
  if isBlank c then ([], o.close) else (c :: o.1, o.2)

/-- The maximal blank-free pieces of a text, in order. -/
def words (cs : List Char) : List (List Char) :=
  (cs.foldr Opening.push ([], [])).close

/-- A text with every carriage return, alone or before a line feed, read
    as one line feed. -/
def joinLines : List Char → List Char
  | '\r' :: '\n' :: rest => '\n' :: joinLines rest
  | '\r' :: rest => '\n' :: joinLines rest
  | c :: rest => c :: joinLines rest
  | [] => []

/-! ## Separators -/

/-- The text before the first separator and the text after it, if the
    separator occurs. -/
def splitFirst (separator : Char) (cs : List Char) : Option (List Char × List Char) :=
  match cs.dropWhile (· != separator) with
  | [] => none
  | _ :: after => some (cs.takeWhile (· != separator), after)

/-- Put one more character in front of the first piece. -/
def extend (c : Char) : List (List Char) → List (List Char)
  | [] => [[c]]
  | piece :: later => (c :: piece) :: later

/-- The pieces of a text between its separators. -/
def pieces (separator : Char) : List Char → List (List Char)
  | [] => [[]]
  | c :: rest =>
      if c = separator then [] :: pieces separator rest
      else extend c (pieces separator rest)

end BeatShield.Text
