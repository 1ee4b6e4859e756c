import BeatShield.Particles

/-! # Rows — the particles one by one

    The particles are kept in seven columns, and each column is extended,
    moved and thinned out for itself.  Here a particle is a record of its
    own, and a `Swarm` is a plain list of such records: bursts are put
    behind it, every particle moves by itself, and those whose life is over
    are taken out.

      * `Particles.ofRows` puts records into columns, and `Particles.rows`
        zips columns into records (`rows_ofRows`).
      * A burst, a step of time and a clearing do the same to the columns
        as to the records (`spawn_ofRows`, `advance_ofRows`).  For a burst
        the units have to come out right: they are drawn column by column,
        and record `i` gets the `i`-th of each column.
      * By induction the columns stay rows (`columns_stay_rows`). -/

namespace BeatShield

variable {α : Type} [Scalar α]

/-! ## Single particles -/

/-- One particle. -/
structure Particle (α : Type) where
  position : Vec α
  velocity : Vec α
  rotation : α
  spin : α
  life : α
  lifeTime : α
  size : α
  deriving DecidableEq, Repr

namespace Particle

/-- The particle at a place of a burst.  The first units are for the
    directions, one for each particle, and then as many for the speeds, for
    the rotations and for the spins. -/
def ofBurst [Trig α] (burst : Explosion α) (draws : Draws α) (place : Nat) : Particle α :=
  let unit (column : Nat) : α := draws.source (draws.used + column * burst.count + place)
  { position := burst.origin
    velocity := Vec.polar (burst.angle.pick (unit 0)) (burst.speed.pick (unit 1))
    rotation := burst.rotation.pick (unit 2)
    spin := burst.spin.pick (unit 3)
    life := 0.0
    lifeTime := burst.life
    size := burst.size }

/-- A particle some time later. -/
def later (p : Particle α) (dt : α) : Particle α :=
  { p with
    position := p.position.plus (p.velocity.scale dt)
    rotation := p.rotation + p.spin * dt
    life := p.life + dt }

/-- Whether the life of a particle is not over yet. -/
def isAlive (p : Particle α) : Bool := decide (p.life < p.lifeTime)

end Particle

/-- The particles of a burst. -/
def Explosion.particles [Trig α] (burst : Explosion α) (draws : Draws α) : List (Particle α) :=
  (List.range burst.count).map (Particle.ofBurst burst draws)

/-! ## Lists of particles -/

/-- What may be asked of particles. -/
inductive Particles.Request (α : Type) where
  | spawn (burst : Explosion α)
  | advance (dt : α)
  | clear

/-- Particles in one list, and the units that are left to draw. -/
structure Swarm (α : Type) where
  particles : List (Particle α)
  draws : Draws α

/-- What a request makes of a list of particles. -/
def Swarm.answer [Trig α] (swarm : Swarm α) : Particles.Request α → Swarm α
  | .spawn burst =>
      { particles := swarm.particles ++ burst.particles swarm.draws
        draws := swarm.draws.skip (4 * burst.count) }
  | .advance dt =>
      { swarm with particles := (swarm.particles.map (·.later dt)).filter Particle.isAlive }
  | .clear => { swarm with particles := [] }

/-! ## Columns and rows -/

namespace Particles

/-- What a request makes of the columns. -/
def answer [Trig α] (state : Particles α × Draws α) : Request α → Particles α × Draws α
  | .spawn burst => state.1.spawn burst state.2
  | .advance dt => (state.1.advance dt, state.2)
  | .clear => (empty, state.2)

/-- Whether all columns are of one length. -/
structure Aligned (p : Particles α) : Prop where
  positions : p.positions.length = p.count
  velocities : p.velocities.length = p.count
  rotations : p.rotations.length = p.count
  spins : p.spins.length = p.count
  lifeTimes : p.lifeTimes.length = p.count
  sizes : p.sizes.length = p.count

/-- The columns, zipped row by row. -/
def rows (p : Particles α) : List (Particle α) :=
  let motions := (p.positions.zip p.velocities).zip (p.rotations.zip p.spins)
  let ages := (p.lives.zip p.lifeTimes).zip p.sizes
  List.zipWith
    (fun motion age =>
      { position := motion.1.1
        velocity := motion.1.2
        rotation := motion.2.1
        spin := motion.2.2
        life := age.1.1
        lifeTime := age.1.2
        size := age.2 }) motions ages

/-- The columns of some rows. -/
def ofRows (rows : List (Particle α)) : Particles α :=
  { positions := rows.map (·.position)
    velocities := rows.map (·.velocity)
    rotations := rows.map (·.rotation)
    spins := rows.map (·.spin)
    lives := rows.map (·.life)
    lifeTimes := rows.map (·.lifeTime)
    sizes := rows.map (·.size) }

omit [Scalar α] in
/-- Columns of rows are of one length. -/
theorem aligned_ofRows (rows : List (Particle α)) : (ofRows rows).Aligned := by
  constructor <;> simp [ofRows, count]

omit [Scalar α] in
/-- Rows are read back from their columns. -/
theorem rows_ofRows (rows : List (Particle α)) : (ofRows rows).rows = rows := by
  induction rows with
  | nil => rfl
  | cons p rest ih => exact congrArg (p :: ·) ih

omit [Scalar α] in
theorem count_ofRows (rows : List (Particle α)) : (ofRows rows).count = rows.length :=
  List.length_map _

/-! ## Bursts -/

/-- The numbers drawn for one column, by their places. -/
theorem picks_column (draws : Draws α) (column : Nat) (r : Range α) (n : Nat) :
    (draws.skip (column * n)).picks r n
      = ((List.range n).map fun place =>
          r.pick (draws.source (draws.used + column * n + place)),
        draws.skip ((column + 1) * n)) := by
  have hskip : (draws.skip (column * n)).skip n = draws.skip ((column + 1) * n) := by
    simp only [Draws.skip, Nat.add_assoc, Nat.succ_mul]
  rw [Draws.picks, hskip, Draws.take, List.map_map]
  rfl

/-- A burst is put behind the rows, and each of its particles has used
    four units. -/
theorem spawn_ofRows [Trig α] (rows : List (Particle α)) (burst : Explosion α)
    (draws : Draws α) :
    (ofRows rows).spawn burst draws
      = (ofRows (rows ++ burst.particles draws), draws.skip (4 * burst.count)) := by
  have hfirst : draws = draws.skip (0 * burst.count) := by
    rw [Nat.zero_mul]
    rfl
  have hconst {β : Type} (c : β) :
      List.replicate burst.count c = (List.range burst.count).map fun _ => c := by
    rw [List.map_const', List.length_range]
  -- the four ranges are drawn from one after the other, so the columns lie
  -- so many units apart
  have h₀ := picks_column draws 0 burst.angle burst.count
  have h₁ := picks_column draws 1 burst.speed burst.count
  have h₂ := picks_column draws 2 burst.rotation burst.count
  have h₃ := picks_column draws 3 burst.spin burst.count
  rw [← hfirst] at h₀
  simp only [spawn, h₀, h₁, h₂, h₃, hconst, List.zipWith_map, List.zipWith_self]
  simp only [ofRows, Explosion.particles, List.map_append, List.map_map]
  rfl

/-! ## Steps of time -/

/-- A mask that is read off the rows takes the same rows from every
    column. -/
theorem select_map {ρ β : Type} (marked : ρ → Bool) (f : ρ → β) (rows : List ρ) :
    select (rows.map marked) (rows.map f) = (rows.filter marked).map f := by
  induction rows with
  | nil => rfl
  | cons row rest ih =>
      have hhead : select (List.map marked (row :: rest)) (List.map f (row :: rest))
          = (if marked row then [f row] else [])
            ++ select (rest.map marked) (rest.map f) := by
        simp only [select, List.map_cons, List.zip_cons_cons, List.filterMap_cons]
        cases marked row <;> rfl
      rw [hhead, ih, List.filter_cons]
      cases marked row <;> rfl

/-- Columns move like the rows they hold. -/
theorem advance_ofRows (rows : List (Particle α)) (dt : α) :
    (ofRows rows).advance dt = ofRows ((rows.map (·.later dt)).filter Particle.isAlive) := by
  simp only [advance, ofRows, List.map_map, List.zipWith_map, List.zipWith_self, select_map,
    List.filter_map]
  rfl

/-! ## Sequences of requests -/

variable [Trig α]

/-- What each request does to rows in columns is what it does to the rows. -/
theorem answer_ofRows (swarm : Swarm α) (request : Request α) :
    answer (ofRows swarm.particles, swarm.draws) request
      = (ofRows (swarm.answer request).particles, (swarm.answer request).draws) := by
  cases request with
  | spawn burst => exact spawn_ofRows swarm.particles burst swarm.draws
  | advance dt => exact congrArg (·, swarm.draws) (advance_ofRows swarm.particles dt)
  | clear => rfl

/-- So a whole run of requests comes to the same on both sides. -/
theorem foldl_answer_ofRows (requests : List (Request α)) (swarm : Swarm α) :
    requests.foldl answer (ofRows swarm.particles, swarm.draws)
      = (ofRows (requests.foldl Swarm.answer swarm).particles,
        (requests.foldl Swarm.answer swarm).draws) := by
  induction requests generalizing swarm with
  | nil => rfl
  | cons request rest ih =>
      rw [List.foldl_cons, List.foldl_cons, answer_ofRows]
      exact ih (swarm.answer request)

/-- After any bursts, steps of time and clearings the seven columns are of
    one length, and row by row they are the particles that a list of single
    particles holds after the same requests, with the same units left to
    draw. -/
theorem columns_stay_rows (draws : Draws α) (requests : List (Request α)) :
    let state := requests.foldl answer (empty, draws)
    let swarm := requests.foldl Swarm.answer ⟨[], draws⟩
    state.1.Aligned ∧ state.1.rows = swarm.particles ∧ state.2 = swarm.draws := by
  intro state swarm
  have hstate : state = (ofRows swarm.particles, swarm.draws) :=
    foldl_answer_ofRows requests ⟨[], draws⟩
  rw [hstate]
  exact ⟨aligned_ofRows swarm.particles, rows_ofRows swarm.particles, rfl⟩

end Particles

end BeatShield
