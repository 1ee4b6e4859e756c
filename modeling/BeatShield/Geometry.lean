import BeatShield.Number.Scalar

/-! # Geometry — points and ranges -/

namespace BeatShield

/-- A point of the plane, or a vector; y grows downwards. -/
structure Vec (α : Type) where
  x : α
  y : α
  deriving DecidableEq, Repr

/-- The numbers from one end to another. -/
structure Range (α : Type) where
  low : α
  high : α
  deriving DecidableEq, Repr

namespace Vec

variable {α : Type} [Scalar α]

/-- The vector of a length in the direction of an angle. -/
def polar [Trig α] (angle length : α) : Vec α :=
  { x := Trig.cos angle * length, y := Trig.sin angle * length }

/-- The sum of two vectors. -/
def plus (v w : Vec α) : Vec α := { x := v.x + w.x, y := v.y + w.y }

/-- A vector times a number. -/
def scale (v : Vec α) (t : α) : Vec α := { x := v.x * t, y := v.y * t }

end Vec

namespace Range

variable {α : Type} [Scalar α]

/-- The number that lies so far along the range, from 0 at its low end
    to 1 at its high end. -/
def pick (r : Range α) (unit : α) : α := r.low + (r.high - r.low) * unit

/-- The numbers within a distance of a middle. -/
def around (middle distance : α) : Range α :=
  { low := middle - distance, high := middle + distance }

end Range

end BeatShield
