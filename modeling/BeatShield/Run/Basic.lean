import BeatShield.Chart.Basic
import BeatShield.Geometry
import BeatShield.Rules
import BeatShield.Timing.Offset

/-! # Run — the state of one play through a chart

    A run knows the music time, the speed of approach, the side that is
    shielded, the score, how far death has got, which events are still
    live and how much the camera shakes.

      * `distance` is how far a projectile is from the heart: the ring's
        radius at its arrival time, less before and after in proportion to
        speed and tempo.
      * `outcome` judges a projectile from the state of the run alone, so
        that the outcomes of one frame do not depend on one another. -/

namespace BeatShield

/-- The state of a run. -/
structure Run (α : Type) where
  /-- Music time in seconds. -/
  elapsed : α
  /-- The speed of approach. -/
  speed : α
  /-- The side that the shield covers. -/
  shield : Option Direction
  /-- The number of blocked projectiles. -/
  score : Int
  /-- Real seconds since the hit that ended the run, if there was one. -/
  death : Option α
  /-- The projectiles still under way. -/
  live : List (Event α)
  /-- The camera shake, as a fraction of half the screen. -/
  shake : α
  deriving DecidableEq, Repr

/-- What becomes of a live projectile in a frame. -/
inductive Outcome where
  | pending
  | blocked
  | hit
  deriving DecidableEq, Repr

namespace Run

variable {α : Type} [Scalar α]

/-- The start of a run through a chart. -/
def ofChart (chart : Chart α) : Run α :=
  { elapsed := 0.0
    speed := Rules.initialSpeed
    shield := none
    score := 0
    death := none
    live := chart.events
    shake := 0.0 }

/-- Whether the run has been ended by a hit. -/
def isDying (run : Run α) : Bool := run.death.isSome

/-- The signed distance of a projectile from the heart.  It goes on
    shrinking below zero. -/
def distance (run : Run α) (tempo : α) (event : Event α) : α :=
  (event.arrival - run.elapsed) * run.speed * Tempo.beatRate tempo + Rules.shieldRadius

/-- Where a projectile is, seen from the heart. -/
def position [Trig α] (run : Run α) (tempo : α) (event : Event α) : Vec α :=
  Vec.polar event.side.angle (run.distance tempo event)

/-- What becomes of a projectile.  The shield blocks it once it is inside
    the ring; otherwise it hits once it is near enough. -/
def outcome (run : Run α) (tempo : α) (event : Event α) : Outcome :=
  let distance := run.distance tempo event
  if run.shield = some event.side ∧ distance < Rules.shieldRadius then .blocked
  else if distance ≤ Rules.hurtRadius then .hit
  else .pending

/-- The part of real time that passes in the game: all of it while alive,
    then less and less, and none once death is complete. -/
def pace (death : Option α) : α := Scalar.atLeast 0.0 (1.0 - death.getD 0.0)

/-- The musical position of a run, as it is shown. -/
def label (run : Run α) (tempo : α) : Except NumberError String :=
  Position.label run.elapsed tempo

end Run

end BeatShield
