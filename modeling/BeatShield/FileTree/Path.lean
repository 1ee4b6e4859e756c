import BeatShield.Text.Split

/-! # Path — names of files

    A path is a list of names, from the current folder or from the root.
    Empty names and single dots are dropped when a path is read; double
    dots stay. -/

namespace BeatShield

/-- Where a path starts: at the current folder, at the root, or at the
    second root that two slashes stand for. -/
inductive Anchor where
  | here
  | root
  | doubleRoot
  deriving DecidableEq, Repr

/-- A path. -/
structure Path where
  anchor : Anchor := .here
  parts : List String
  deriving DecidableEq, Repr

namespace Path

/-- The start that a number of leading slashes stands for. -/
def anchorOfSlashes : Nat → Anchor
  | 0 => .here
  | 2 => .doubleRoot
  | _ => .root

/-- Reads a path. -/
def ofString (s : String) : Path :=
  { anchor := anchorOfSlashes (s.toList.takeWhile (· == '/')).length
    parts := ((Text.pieces '/' s.toList).map String.ofList).filter fun part =>
      part != "" && part != "." }

/-- The text in front of the names. -/
def anchorText : Anchor → String
  | .here => ""
  | .root => "/"
  | .doubleRoot => "//"

/-- Writes a path. -/
def text (p : Path) : String :=
  if p.anchor = .here ∧ p.parts = [] then "."
  else anchorText p.anchor ++ "/".intercalate p.parts

/-- A path followed by another; one from a root stands alone. -/
def join (p q : Path) : Path :=
  if q.anchor = .here then { p with parts := p.parts ++ q.parts } else q

/-- A name in the folder at a path. -/
def child (p : Path) (name : String) : Path := { p with parts := p.parts ++ [name] }

end Path

end BeatShield
