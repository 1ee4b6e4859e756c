import BeatShield.Geometry

/-! # Draws — a stream of random numbers

    Random numbers are an endless stream of units, from 0 to 1, and the
    place reached in it.  Nothing else is random, so a game is determined
    by its stream. -/

namespace BeatShield

/-- A stream of units and how many of them have been used. -/
structure Draws (α : Type) where
  source : Nat → α
  used : Nat := 0

namespace Draws

variable {α : Type} [Scalar α]

/-- The stream that repeats a list; the empty list stands for one half. -/
def cycle (units : Array α) : Draws α :=
  { source := fun n => units[n % units.size]?.getD 0.5 }

/-- The next unit. -/
def head (d : Draws α) : α := d.source d.used

/-- The stream after so many more units. -/
def skip (d : Draws α) (count : Nat) : Draws α := { d with used := d.used + count }

/-- The next units. -/
def take (d : Draws α) (count : Nat) : List α :=
  (List.range count).map fun i => d.source (d.used + i)

/-- The next number of a range, and the stream after it. -/
def pick (d : Draws α) (r : Range α) : α × Draws α := (r.pick d.head, d.skip 1)

/-- The next numbers of a range, and the stream after them. -/
def picks (d : Draws α) (r : Range α) (count : Nat) : List α × Draws α :=
  ((d.take count).map r.pick, d.skip count)

end Draws

end BeatShield
