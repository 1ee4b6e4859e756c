import BeatShield.Number.Scalar

/-! # Rules — the quantities of the game

    Lengths are virtual pixels from the heart, times are seconds, and
    angles are radians. -/

namespace BeatShield.Rules

variable {α : Type} [Scalar α]

/-- Projectiles cross the ring of this radius exactly when they arrive. -/
def shieldRadius : α := 48.0

/-- A projectile this near that is not blocked hits the heart. -/
def hurtRadius : α := 16.0

/-- The radius at which the shield is drawn. -/
def shieldDrawRadius : α := 32.0

/-- The approach speed at the start of a run. -/
def initialSpeed : α := 128.0

/-- The approach speed gained in a second while alive. -/
def speedRamp : α := 2.0

/-- The camera shake that a block adds. -/
def shakeImpulse : α := 0.01

/-- The part of the camera shake that is left after a frame. -/
def shakeDecay : α := 0.9

/-- The real seconds until the slow motion after a hit stands still. -/
def deathRamp : α := 1.0

/-- The particles of one explosion. -/
def explosionCount : Nat := 10

/-- Explosions spread this far to either side of the blocked direction. -/
def explosionSpread : α := 0.2

/-- The least speed of a particle. -/
def explosionSlowest : α := 128.0

/-- The greatest speed of a particle. -/
def explosionFastest : α := 338.0

/-- The seconds that a particle lives. -/
def explosionLife : α := 5.0

/-- The side of a particle's square. -/
def particleSize : α := 10.0

end BeatShield.Rules
