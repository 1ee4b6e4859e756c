import BeatShield.Proofs.Particles.Rows
import BeatShield.Proofs.Run.Conservation
import BeatShield.Proofs.Session.Restart

/-! # Bursts — the particles of a session are those of its blocks

    A session hands the bursts of a frame to its particles and then lets
    the time of the frame pass for all of them.  A restart clears the
    particles while the run starts over by itself.  That the two stay
    together is said by writing down every block since the last restart as
    a `Burst`, with the frames that have passed since then.

      * All particles of a burst are of one age, so they stay or go
        together (`Burst.filter_particles`).
      * A frame puts the bursts of its blocks behind the others and makes
        all of them older (`particles_advance`, `bursts_concat`).
      * By induction on the frames the particles are those of the bursts
        that last, in the order of the blocks, and there are as many bursts
        as the score says (`moved_bursts`). -/

namespace BeatShield

/-! ## Single bursts -/

/-- What flew off at a block: the burst, the units that it was drawn with,
    and how long every frame since then has lasted in the game, from the
    frame of the block on. -/
structure Burst where
  explosion : Explosion Float
  draws : Draws Float
  steps : List Float
  whole : explosion.count = Rules.explosionCount
  usual : explosion.life = Rules.explosionLife

namespace Burst

variable (b : Burst) (dt : Float)

/-- How long the particles have lived. -/
def age : Float := b.steps.foldl (· + ·) 0.0

/-- Whether the age has been below the time to live after every frame so
    far. -/
def Lasts : Prop :=
  ∀ n < b.steps.length, (b.steps.take (n + 1)).foldl (· + ·) 0.0 < Rules.explosionLife

instance : Decidable b.Lasts := inferInstanceAs (Decidable (∀ n < _, _))

/-- The particles as they are after all these frames. -/
def particles : List (Particle Float) :=
  (b.explosion.particles b.draws).map (b.steps.foldl Particle.later)

/-- A burst one frame later. -/
def later : Burst := { b with steps := b.steps ++ [dt] }

/-- A burst has as many particles as a block releases. -/
theorem length_particles : b.particles.length = Rules.explosionCount := by
  rw [particles, Explosion.particles, List.length_map, List.length_map, List.length_range, b.whole]

/-- All particles of a burst have lived for the same time, and have the
    same time to live. -/
theorem of_mem_particles {p : Particle Float} (h : p ∈ b.particles) :
    p.life = b.age ∧ p.lifeTime = Rules.explosionLife := by
  obtain ⟨born, hborn, rfl⟩ := List.mem_map.mp h
  obtain ⟨place, -, rfl⟩ := List.mem_map.mp hborn
  have hsteps : ∀ (steps : List Float) (q : Particle Float),
      (steps.foldl Particle.later q).life = steps.foldl (· + ·) q.life ∧
        (steps.foldl Particle.later q).lifeTime = q.lifeTime := by
    intro steps
    induction steps with
    | nil => exact fun q => ⟨rfl, rfl⟩
    | cons dt rest ih => exact fun q => ih (q.later dt)
  obtain ⟨hlife, hlifeTime⟩ := hsteps b.steps (.ofBurst b.explosion b.draws place)
  exact ⟨hlife, hlifeTime.trans b.usual⟩

/-- The particles of an older burst are those of the burst, grown older. -/
theorem particles_later : (b.later dt).particles = b.particles.map (·.later dt) := by
  rw [particles, particles, List.map_map]
  exact List.map_congr_left fun p _ => List.foldl_concat ..

/-- A burst lasts through one more frame if it has so far and is young
    enough after it. -/
theorem lasts_later : (b.later dt).Lasts ↔ b.Lasts ∧ (b.later dt).age < Rules.explosionLife := by
  have hlength : (b.later dt).steps.length = b.steps.length + 1 := List.length_append
  have hage : (b.later dt).age
      = ((b.later dt).steps.take (b.steps.length + 1)).foldl (· + ·) 0.0 := by
    rw [← hlength, List.take_length, age]
  -- of the ages after each frame only the last is new
  have hbefore : ∀ n < b.steps.length,
      (b.later dt).steps.take (n + 1) = b.steps.take (n + 1) :=
    fun n hn => List.take_append_of_le_length hn
  constructor
  · intro h
    refine ⟨fun n hn => ?_, ?_⟩
    · rw [← hbefore n hn]
      exact h n (by omega)
    · rw [hage]
      exact h b.steps.length (by omega)
  · rintro ⟨hlasts, hlast⟩ n hn
    rcases Nat.lt_or_ge n b.steps.length with hlt | hge
    · rw [hbefore n hlt]
      exact hlasts n hlt
    · obtain rfl : n = b.steps.length := by omega
      rwa [← hage]

/-- The particles of a burst stay or go together. -/
theorem filter_particles :
    b.particles.filter Particle.isAlive
      = if b.age < Rules.explosionLife then b.particles else [] := by
  have halive : ∀ p ∈ b.particles, p.isAlive = decide (b.age < Rules.explosionLife) := by
    intro p hp
    obtain ⟨hlife, hlifeTime⟩ := b.of_mem_particles hp
    rw [Particle.isAlive, hlife, hlifeTime]
  split
  case isTrue hyoung => exact List.filter_eq_self.mpr fun p hp => by simp [halive p hp, hyoung]
  case isFalse hold => exact List.filter_eq_nil_iff.mpr fun p hp => by simp [halive p hp, hold]

/-- The particles of several bursts, of those that last. -/
def flying (bursts : List Burst) : List (Particle Float) :=
  (bursts.filter fun b => decide b.Lasts).flatMap particles

/-- The particles of several bursts stand one behind the other. -/
theorem flying_append (first second : List Burst) :
    flying (first ++ second) = flying first ++ flying second := by
  rw [flying, List.filter_append, List.flatMap_append]
  rfl

/-- Each burst that lasts counts as a whole. -/
theorem length_flying (bursts : List Burst) :
    (flying bursts).length
      = Rules.explosionCount * (bursts.filter fun b => decide b.Lasts).length := by
  rw [flying, List.length_flatMap, List.map_congr_left fun b _ => b.length_particles,
    List.map_const', List.sum_replicate_nat, Nat.mul_comm]

/-- A burst is in flight with all its particles or with none. -/
theorem flying_singleton : flying [b] = if b.Lasts then b.particles else [] := by
  by_cases h : b.Lasts <;> simp [flying, h]

/-- A frame makes all particles older and takes the bursts away whose time
    is over. -/
theorem flying_later (bursts : List Burst) :
    ((flying bursts).map (·.later dt)).filter Particle.isAlive
      = flying (bursts.map (·.later dt)) := by
  induction bursts with
  | nil => rfl
  | cons b rest ih =>
      have hfirst : ((flying [b]).map (·.later dt)).filter Particle.isAlive
          = flying [b.later dt] := by
        simp only [flying_singleton, lasts_later]
        by_cases h : b.Lasts
        · simp only [h, true_and, if_true, ← particles_later, filter_particles]
        · simp [h]
      have hcons : flying (b :: rest) = flying [b] ++ flying rest := flying_append [b] rest
      rw [hcons, List.map_append, List.filter_append, hfirst, ih, ← flying_append]
      rfl

end Burst

/-! ## The bursts of a frame -/

namespace Run

/-- What flies off at a block, before any frame has passed. -/
def burst (run : Run Float) (tempo : Float) (draws : Draws Float) (event : Event Float) : Burst :=
  { explosion := run.explosion tempo event, draws, steps := [], whole := rfl, usual := rfl }

/-- What flies off at several blocks.  Each burst is drawn with the units
    that those before it have left. -/
def burstsOf (run : Run Float) (tempo : Float) : Draws Float → List (Event Float) → List Burst
  | _, [] => []
  | draws, event :: rest =>
      run.burst tempo draws event
        :: burstsOf run tempo (draws.skip (4 * Rules.explosionCount)) rest

theorem length_burstsOf (run : Run Float) (tempo : Float) (draws : Draws Float)
    (events : List (Event Float)) : (run.burstsOf tempo draws events).length = events.length := by
  induction events generalizing draws with
  | nil => rfl
  | cons event rest ih => exact congrArg (· + 1) (ih _)

/-- When it is released, no frame has passed for it. -/
theorem steps_of_mem_burstsOf {run : Run Float} {tempo : Float} {draws : Draws Float}
    {events : List (Event Float)} {b : Burst} (h : b ∈ run.burstsOf tempo draws events) :
    b.steps = [] := by
  induction events generalizing draws with
  | nil => cases h
  | cons event rest ih =>
      rcases List.mem_cons.mp h with rfl | hrest
      · rfl
      · exact ih hrest

section

variable {α : Type} [Scalar α] [Trig α] (run : Run α) (tempo : α) (events : List (Event α))

/-- The bursts that are commanded for some projectiles. -/
theorem filter_volleys :
    (run.volleys tempo events).filter Command.isExplosion
      = (events.filter (run.blocks tempo)).map
          fun event => .explode (run.explosion tempo event) := by
  rw [volleys, List.filter_flatMap]
  exact List.flatMap_pure_eq_map _ _

/-- A hit among the projectiles changes nothing about the bursts. -/
theorem filter_settle (halive : run.isDying = false) :
    (settle tempo run events).commands.filter Command.isExplosion
      = (events.filter (run.blocks tempo)).map
          fun event => .explode (run.explosion tempo event) := by
  rcases calm_or_first_hit tempo run events with hcalm | ⟨before, event, after, rfl, hno, hhit⟩
  · rw [settle_calm tempo run events (.inr hcalm)]
    exact run.filter_volleys tempo events
  · have hb : run.blocks tempo event = false := by rw [blocks, hhit]; rfl
    have hbefore := run.filter_volleys tempo before
    have hafter := run.filter_volleys tempo after
    rw [settle_first_hit tempo run before event after halive hno hhit]
    simp only [List.filter_append, List.filter_cons, Command.isExplosion, hbefore, hafter, hb,
      List.map_append, Bool.false_eq_true, if_false]

end

end Run

namespace Session

/-- Only bursts concern the particles. -/
theorem spawnAll_filter (particles : Particles Float) (draws : Draws Float)
    (commands : List (Command Float)) :
    spawnAll particles draws (commands.filter Command.isExplosion)
      = spawnAll particles draws commands := by
  induction commands generalizing particles draws with
  | nil => rfl
  | cons command rest ih =>
      cases command with
      | play sound => exact ih particles draws
      | stop sound => exact ih particles draws
      | explode burst => exact ih _ _

/-- The particles of blocks are put behind the others. -/
theorem spawnAll_burstsOf (run : Run Float) (tempo : Float) (bursts : List Burst)
    (draws : Draws Float) (events : List (Event Float)) :
    (spawnAll (.ofRows (Burst.flying bursts)) draws
        (events.map fun event => .explode (run.explosion tempo event))).1
      = .ofRows (Burst.flying (bursts ++ run.burstsOf tempo draws events)) := by
  induction events generalizing bursts draws with
  | nil => simp [spawnAll, Run.burstsOf]
  | cons event rest ih =>
      have hborn : (run.explosion tempo event).particles draws
          = Burst.flying [run.burst tempo draws event] := by
        have hlasts : (run.burst tempo draws event).Lasts := fun n hn =>
          absurd hn (Nat.not_lt_zero n)
        rw [Burst.flying_singleton, if_pos hlasts]
        exact (List.map_id _).symm
      have hrest := ih (bursts ++ [run.burst tempo draws event])
        (draws.skip (4 * Rules.explosionCount))
      rw [← List.append_cons] at hrest
      rw [List.map_cons, spawnAll, Particles.spawn_ofRows, hborn, ← Burst.flying_append]
      exact hrest

/-- The projectiles that a frame blocks. -/
def blocked (session : Session) (m : Moment) : List (Event Float) :=
  if session.run.isDying then []
  else session.run.live.filter
    ((session.run.judging m.dt m.presses.sides).blocks session.chart.tempo)

/-- What flies off in a frame. -/
def released (session : Session) (m : Moment) : List Burst :=
  (session.run.judging m.dt m.presses.sides).burstsOf session.chart.tempo session.draws
    (session.blocked m)

/-- What flies off in several frames, in the order of the blocks, and how
    long the frames from that of the block on last in the game. -/
def bursts : Session → List Moment → List Burst
  | _, [] => []
  | session, m :: rest =>
      let steps := (session.outputs (m :: rest)).map Frame.passed
      (session.released m).map (fun b => { b with steps }) ++ bursts (session.advance m) rest

section

variable (session : Session) {m : Moment}

/-- The bursts that a frame commands are those of the blocks in it. -/
theorem filter_output (h : m.presses.restart = false) :
    (session.output m).commands.filter Command.isExplosion
      = (session.blocked m).map fun event => .explode
          ((session.run.judging m.dt m.presses.sides).explosion session.chart.tempo event) := by
  rw [output, Run.frame_of_not_restart session.run session.chart m.dt h, blocked]
  cases hd : session.run.isDying with
  | true =>
      obtain ⟨death, hdeath⟩ := Option.isSome_iff_exists.mp hd
      rw [Run.advance_of_dying hdeath]
      rfl
  | false =>
      rw [Run.advance_of_alive hd]
      exact Run.filter_settle _ session.chart.tempo session.run.live hd

/-- Every block scores. -/
theorem score_advance (h : m.presses.restart = false) :
    (session.advance m).run.score = session.run.score + (session.released m).length := by
  show (session.run.frame session.chart m.dt m.presses).run.score = _
  rw [Run.frame_of_not_restart session.run session.chart m.dt h, released, Run.length_burstsOf,
    blocked]
  cases hd : session.run.isDying with
  | true =>
      obtain ⟨death, hdeath⟩ := Option.isSome_iff_exists.mp hd
      rw [Run.advance_of_dying hdeath]
      exact (Int.add_zero _).symm
  | false =>
      -- a live run scores what it blocks, and each block releases one burst
      rw [Run.advance_of_alive hd]
      have hscore := Run.settle_score session.chart.tempo
        (session.run.judging m.dt m.presses.sides) session.run.live hd
      rw [List.countP_eq_length_filter] at hscore
      exact hscore

/-- A frame puts the bursts of its blocks behind the others and makes all of
    them older. -/
theorem particles_advance {bursts : List Burst} (h : m.presses.restart = false)
    (hparticles : session.particles = .ofRows (Burst.flying bursts)) :
    (session.advance m).particles
      = .ofRows (Burst.flying ((bursts ++ session.released m).map
          (·.later (session.output m).passed))) := by
  have hadvance : (session.advance m).particles
      = (spawnAll session.particles session.draws (session.output m).commands).1.advance
          (session.output m).passed := if_neg (ne_true_of_eq_false h)
  rw [hadvance, ← spawnAll_filter, session.filter_output h, hparticles, spawnAll_burstsOf,
    Particles.advance_ofRows, Burst.flying_later]
  rfl

/-- So do the bursts that are written down. -/
theorem bursts_concat (moments : List Moment) (m : Moment) :
    session.bursts (moments ++ [m])
      = (session.bursts moments ++ (session.moved moments).released m).map
          (·.later ((session.moved moments).output m).passed) := by
  induction moments generalizing session with
  | nil =>
      show (session.released m).map _ ++ [] = _
      rw [List.append_nil]
      -- what flies off in the last frame has had no frame before it
      refine List.map_congr_left fun b hb => ?_
      have hnone : b.steps = [] := Run.steps_of_mem_burstsOf hb
      rw [Burst.later, hnone]
      rfl
  | cons first rest ih =>
      have hsteps : session.outputs (first :: (rest ++ [m]))
          = session.outputs (first :: rest) ++ [(session.moved (first :: rest)).output m] :=
        session.outputs_concat (first :: rest) m
      rw [List.cons_append, bursts, ih (session.advance first), hsteps, bursts]
      simp only [List.map_append, List.map_map, List.append_assoc]
      rfl

/-! ## Sequences of frames -/

/-- As long as nothing restarts, the particles are those of the bursts that
    last, and every burst is a point of the score. -/
theorem moved_bursts (hempty : session.particles = .empty) (moments : List Moment)
    (h : ∀ m ∈ moments, m.presses.restart = false) :
    (session.moved moments).particles = .ofRows (Burst.flying (session.bursts moments)) ∧
      (session.moved moments).run.score
        = session.run.score + (session.bursts moments).length := by
  induction moments using List.reverseRecOn with
  | nil => exact ⟨hempty, (Int.add_zero _).symm⟩
  | append_singleton earlier m ih =>
      obtain ⟨hearlier, hm⟩ := List.forall_mem_append.mp h
      have hm : m.presses.restart = false := hm m List.mem_cons_self
      obtain ⟨hparticles, hscore⟩ := ih hearlier
      rw [moved_concat, bursts_concat]
      refine ⟨particles_advance _ hm hparticles, ?_⟩
      rw [score_advance _ hm, hscore, List.length_map, List.length_append]
      omega

/-- The frames since the last restart. -/
def sinceRestart (moments : List Moment) : List Moment :=
  moments.rtakeWhile fun m => !m.presses.restart

/-- A session as the last restart has left it, or as it was at first. -/
def lastStart (moments : List Moment) : Session :=
  session.moved (moments.rdropWhile fun m => !m.presses.restart)

/-- What came before the last restart has no part in the state after it. -/
theorem lastStart_moved (moments : List Moment) :
    (session.lastStart moments).moved (sinceRestart moments) = session.moved moments := by
  rw [lastStart, sinceRestart, ← moved_append, List.rdropWhile_append_rtakeWhile]

/-- At the last restart the run was fresh and there were no particles. -/
theorem lastStart_fresh (hrun : session.run = .ofChart session.chart)
    (hempty : session.particles = .empty) (moments : List Moment) :
    (session.lastStart moments).run = .ofChart session.chart ∧
      (session.lastStart moments).particles = .empty := by
  rw [lastStart]
  rcases Run.rdropWhile_eq_nil_or_concat (fun m : Moment => !m.presses.restart) moments with
    hnone | ⟨earlier, m, hlast, hrestart⟩
  · rw [hnone]
    exact ⟨hrun, hempty⟩
  · obtain ⟨hfresh, hclear⟩ :=
      advance_of_restart (session.moved earlier) (by simpa using hrestart)
    rw [moved_chart] at hfresh
    rw [hlast, moved_concat]
    exact ⟨hfresh, hclear⟩

end

/-- However long its frames are and whatever is pressed in them, a session
    that was fresh, as it is once opened (`of_opened_eq_ok`), has the
    particles of the blocks since the last restart: whole bursts of ten in
    the order of the blocks, one for each block whose age has stayed below
    the time to live, and each as old as the frames from that of its block
    on have lasted in the game.  All blocks since the restart make up the
    score, so there are at most ten particles for each point, and none right
    after a restart. -/
theorem explosions_mirror_the_score {session : Session}
    (hrun : session.run = .ofChart session.chart) (hempty : session.particles = .empty)
    (moments : List Moment) :
    let bursts := (session.lastStart moments).bursts (sinceRestart moments)
    ∃ after, (session.frames moments).result = .ok after ∧
      (session.lastStart moments).run = .ofChart session.chart ∧
      after.particles = .ofRows ((bursts.filter fun b => decide b.Lasts).flatMap Burst.particles) ∧
      (∀ b ∈ bursts, b.particles.length = 10 ∧ ∀ p ∈ b.particles, p.life = b.age) ∧
      (bursts.length : Int) = after.run.score ∧
      10 ∣ after.particles.count ∧ (after.particles.count : Int) ≤ 10 * after.run.score ∧
      ∀ earlier m, moments = earlier ++ [m] → m.presses.restart = true →
        after.particles.count = 0 := by
  intro bursts
  obtain ⟨hfresh, hclear⟩ := session.lastStart_fresh hrun hempty moments
  -- after the last restart nothing restarts, which is what the induction is
  -- about
  have hquiet : ∀ m ∈ sinceRestart moments, m.presses.restart = false := by
    intro m hm
    simpa using List.mem_rtakeWhile_imp hm
  obtain ⟨hparticles, hscore⟩ :=
    (session.lastStart moments).moved_bursts hclear (sinceRestart moments) hquiet
  rw [lastStart_moved] at hparticles hscore
  have hpoints : (bursts.length : Int) = (session.moved moments).run.score := by
    rw [hscore, hfresh]
    exact (Int.zero_add _).symm
  have hcount : (session.moved moments).particles.count
      = 10 * (bursts.filter fun b => decide b.Lasts).length := by
    rw [hparticles, Particles.count_ofRows]
    exact Burst.length_flying bursts
  refine ⟨session.moved moments, congrArg Journal.result (frames_eq session moments), hfresh,
    hparticles, ?_, hpoints, ⟨_, hcount⟩, ?_, ?_⟩
  · exact fun b _ => ⟨b.length_particles, fun p hp => (b.of_mem_particles hp).1⟩
  · have hle := List.length_filter_le (fun b : Burst => decide b.Lasts) bursts
    omega
  · rintro earlier m rfl hrestart
    rw [moved_concat, (advance_of_restart (session.moved earlier) hrestart).2]
    rfl

/-- Two projectiles that are blocked in one frame.  Their particles are
    there when they are 4.75 seconds old, and gone when they are five, or at
    once if the run is restarted. -/
theorem bursts_fly_for_five_seconds :
    let chart : Chart Float :=
      { tempo := 120.0, start := 0.0, events := [⟨0.0, .up, .normal⟩, ⟨0.0, .up, .normal⟩] }
    let session : Session :=
      { level := .sole, chart, run := .ofChart chart, sounds := Level.sole.sounds
        particles := .empty, draws := .cycle #[] }
    let block : Moment := ⟨0.25, { sides := [.up] }⟩
    (∃ after, (session.frames [block, ⟨4.5, {}⟩]).result = .ok after ∧ after.run.score = 2 ∧
      after.particles.count = 20) ∧
    (∃ after, (session.frames [block, ⟨4.5, {}⟩, ⟨0.25, {}⟩]).result = .ok after ∧
      after.run.score = 2 ∧ after.particles.count = 0) ∧
    ∃ after, (session.frames [block, ⟨0.25, { restart := true }⟩]).result = .ok after ∧
      after.particles.count = 0 := by
  intro chart session block
  have hrun : session.run = .ofChart session.chart := rfl
  have hempty : session.particles = .empty := rfl
  obtain ⟨young, hyoung, -, hflying, -, hscore, -⟩ :=
    explosions_mirror_the_score hrun hempty [block, ⟨4.5, {}⟩]
  obtain ⟨old, hold, -, hgone, -, hscore', -⟩ :=
    explosions_mirror_the_score hrun hempty [block, ⟨4.5, {}⟩, ⟨0.25, {}⟩]
  obtain ⟨fresh, hfresh, -, -, -, -, -, -, hnone⟩ :=
    explosions_mirror_the_score hrun hempty [block, ⟨0.25, { restart := true }⟩]
  refine ⟨⟨young, hyoung, ?_, ?_⟩, ⟨old, hold, ?_, ?_⟩, fresh, hfresh, hnone [block] _ rfl rfl⟩
  · rw [← hscore]
    decide +kernel
  · rw [hflying, Particles.count_ofRows]
    decide +kernel
  · rw [← hscore']
    decide +kernel
  · rw [hgone, Particles.count_ofRows]
    decide +kernel

end Session

end BeatShield
