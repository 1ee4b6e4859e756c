import BeatShield.Draws
import BeatShield.Run.Command

/-! # Particles — the sparks of blocked projectiles

    The particles are kept column by column: all positions, all
    velocities, and so on, with one row for each particle.

      * `spawn` appends the rows of one explosion, drawing first all
        directions, then all speeds, all rotations and all spins.
      * `advance` moves every row and drops those whose life is over.
      * `alphas` is how opaque each particle still is. -/

namespace BeatShield

/-- The particles, one column for each property. -/
structure Particles (α : Type) where
  positions : List (Vec α)
  velocities : List (Vec α)
  rotations : List α
  spins : List α
  lives : List α
  lifeTimes : List α
  sizes : List α
  deriving DecidableEq, Repr

namespace Particles

variable {α : Type}

/-- No particles. -/
def empty : Particles α := ⟨[], [], [], [], [], [], []⟩

/-- The number of particles. -/
def count (p : Particles α) : Nat := p.lives.length

variable [Scalar α]

/-- Adds the particles of an explosion. -/
def spawn [Trig α] (p : Particles α) (burst : Explosion α) (draws : Draws α) :
    Particles α × Draws α :=
  let n := burst.count
  let (directions, draws) := draws.picks burst.angle n
  let (speeds, draws) := draws.picks burst.speed n
  let (rotations, draws) := draws.picks burst.rotation n
  let (spins, draws) := draws.picks burst.spin n
  ({ positions := p.positions ++ List.replicate n burst.origin
     velocities := p.velocities ++ List.zipWith Vec.polar directions speeds
     rotations := p.rotations ++ rotations
     spins := p.spins ++ spins
     lives := p.lives ++ List.replicate n 0.0
     lifeTimes := p.lifeTimes ++ List.replicate n burst.life
     sizes := p.sizes ++ List.replicate n burst.size }, draws)

/-- The rows of a column that a mask marks. -/
def select {β : Type} (mask : List Bool) (column : List β) : List β :=
  (mask.zip column).filterMap fun (marked, x) => if marked then some x else none

/-- Moves every particle and drops those whose life is over. -/
def advance (p : Particles α) (dt : α) : Particles α :=
  let lives := p.lives.map (· + dt)
  let alive := List.zipWith (fun life lifeTime => decide (life < lifeTime)) lives p.lifeTimes
  { positions := select alive
      (List.zipWith (fun x v => x.plus (v.scale dt)) p.positions p.velocities)
    velocities := select alive p.velocities
    rotations := select alive (List.zipWith (fun r s => r + s * dt) p.rotations p.spins)
    spins := select alive p.spins
    lives := select alive lives
    lifeTimes := select alive p.lifeTimes
    sizes := select alive p.sizes }

/-- How opaque each particle is: 1 at first, fading to 0 over its life. -/
def alphas (p : Particles α) : List α :=
  List.zipWith (fun life lifeTime => 1.0 - life / lifeTime) p.lives p.lifeTimes

end Particles

end BeatShield
