import BeatShield.Direction
import BeatShield.Geometry

/-! # Command — what a frame asks of sound and particles

    A frame of a run changes nothing but the run's own state.  All else is
    asked for by commands, in the order in which they are to be carried
    out. -/

namespace BeatShield

/-- The sounds of a level. -/
inductive Sound where
  | song
  | kick
  | death
  deriving DecidableEq, Repr

/-- A burst of particles: where it starts, how many there are, how long
    they live, and the ranges their motion is drawn from. -/
structure Explosion (α : Type) where
  origin : Vec α
  angle : Range α
  speed : Range α
  count : Nat
  life : α
  rotation : Range α
  spin : Range α
  size : α
  deriving DecidableEq, Repr

/-- One thing that a frame asks for. -/
inductive Command (α : Type) where
  | play (sound : Sound)
  | stop (sound : Sound)
  | explode (burst : Explosion α)
  deriving DecidableEq, Repr

/-- What a run reports to the log. -/
inductive RunNotice (α : Type) where
  /-- A projectile from a side reached the heart. -/
  | hit (side : Direction) (elapsed : α) (score : Int)
  /-- The run started over. -/
  | restarted (events : Nat)
  deriving DecidableEq, Repr

end BeatShield
