import BeatShield.Number.Scalar

/-! # Direction — the four sides of the heart

    A projectile comes from one of four sides, and the shield covers one.
    Angles are those of the screen, where y grows downwards. -/

namespace BeatShield

/-- A side of the heart. -/
inductive Direction where
  | up
  | down
  | left
  | right
  deriving DecidableEq, Repr

namespace Direction

/-- The four sides in the order in which presses of one frame are taken:
    a later one overrides an earlier one. -/
def all : List Direction := [.up, .down, .left, .right]

/-- The letter that stands for a side in a chart. -/
def letter : Direction → Char
  | .up => 'U'
  | .down => 'D'
  | .left => 'L'
  | .right => 'R'

/-- The side that a letter stands for. -/
def ofLetter? (c : Char) : Option Direction := all.find? (·.letter == c)

/-- The name of a side in messages. -/
def name : Direction → String
  | .up => "UP"
  | .down => "DOWN"
  | .left => "LEFT"
  | .right => "RIGHT"

/-- The screen angle of a side, in radians. -/
def angle {α : Type} [Scalar α] [Trig α] : Direction → α
  | .right => 0.0
  | .down => Trig.pi / 2.0
  | .left => Trig.pi
  | .up => -Trig.pi / 2.0

end Direction

end BeatShield
