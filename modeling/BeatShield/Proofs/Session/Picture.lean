import BeatShield.Proofs.Chart.Grammar
import BeatShield.Proofs.Scene.Picture
import BeatShield.Proofs.Session.Restart

/-! # Picture — sessions that can be drawn after every frame

    A session is drawn after each of its frames.  Frames of at most one
    second keep its clocks and its particles within bounds (`Steady`), by
    induction on the frames, so all can be drawn but perhaps the position
    (`Scene.ofRun_succeeds_iff`).

    The position is the time at the rate of the beats.  The clocks have a
    bound, so it is finite unless the tempo is far beyond any music
    (`position_isFinite`); but a chart may have such a tempo, and then
    nothing can be drawn from the first frame on
    (`infinite_tempo_cannot_be_drawn`). -/

namespace BeatShield

open Checked Double

namespace Session

/-! ## Bounds along the frames -/

/-- A session within bounds, with units to draw from. -/
structure Steady (session : Session) : Prop where
  clocks : session.run.Timed
  sparks : session.particles.Bounded
  units : session.draws.Proper

/-- Usual bursts keep the particles within bounds. -/
theorem bounded_spawnAll {particles : Particles Float} {draws : Draws Float}
    {commands : List (Command Float)} (hparticles : particles.Bounded) (hdraws : draws.Proper)
    (husual : ∀ burst, .explode burst ∈ commands → Explosion.Usual burst) :
    (spawnAll particles draws commands).1.Bounded ∧
      (spawnAll particles draws commands).2.Proper := by
  induction commands generalizing particles draws with
  | nil => exact ⟨hparticles, hdraws⟩
  | cons command rest ih =>
      have hrest : ∀ burst, .explode burst ∈ rest → Explosion.Usual burst :=
        fun burst hburst => husual burst (List.mem_cons_of_mem command hburst)
      -- only bursts reach the particles
      cases command with
      | play sound => exact ih hparticles hdraws hrest
      | stop sound => exact ih hparticles hdraws hrest
      | explode burst =>
          have hspawned := hparticles.spawn (husual burst List.mem_cons_self) hdraws
          exact ih hspawned hdraws hrest

/-- One frame keeps a session within bounds. -/
theorem Steady.advance {session : Session} (h : Steady session) {m : Moment}
    (hdt : Within 0.0 1.0 m.dt) : Steady (session.advance m) := by
  obtain ⟨hclocks, hpassed⟩ := h.clocks.frame session.chart hdt m.presses
  have husual : ∀ burst, .explode burst ∈ (session.output m).commands → Explosion.Usual burst :=
    fun burst hburst => Run.usual_of_mem_frame hburst
  obtain ⟨hspawned, hunits⟩ := bounded_spawnAll h.sparks h.units husual
  refine ⟨hclocks, ?_, hunits⟩
  show Particles.Bounded (if m.presses.restart then .empty else _)
  cases m.presses.restart with
  | true => exact Particles.bounded_empty
  | false => exact hspawned.advance hpassed

/-- Any number of such frames keep a session within bounds. -/
theorem Steady.moved {session : Session} (h : Steady session) {moments : List Moment}
    (hdt : ∀ m ∈ moments, Within 0.0 1.0 m.dt) : Steady (session.moved moments) := by
  induction moments generalizing session with
  | nil => exact h
  | cons m later ih =>
      obtain ⟨hm, hlater⟩ := List.forall_mem_cons.mp hdt
      exact ih (h.advance hm) hlater

/-! ## Positions -/

/-- A tempo far beyond any music. -/
def fastest : Float := nearestDouble (twoTo 960)

/-- Up to that tempo a position within the clock's bounds is finite. -/
theorem position_isFinite {run : Run Float} {tempo : Float} (hrun : run.Timed)
    (hpos : 0.0 < tempo) (hfast : tempo ≤ fastest) :
    (run.elapsed * Tempo.beatRate tempo * 4.0).isFinite := by
  have htempo : Within 0.0 fastest tempo :=
    ⟨rfl, by decide +kernel, Double.le_of_lt hpos, hfast⟩
  have hrate : Within 0.0 fastest (Tempo.beatRate tempo) :=
    htempo.div 60.0 rfl (by decide +kernel) rfl (by decide +kernel) (by decide +kernel)
  have hbeats : Within 0.0 (nearestDouble (twoTo 1013)) (run.elapsed * Tempo.beatRate tempo) :=
    hrun.elapsed.mul hrate (by decide +kernel)
  have hfour : Within 0.0 4.0 4.0 := by decide +kernel
  have hfourths : Within 0.0 (nearestDouble (twoTo 1015))
      (run.elapsed * Tempo.beatRate tempo * 4.0) := hbeats.mul hfour (by decide +kernel)
  exact hfourths.isFinite

/-! ## Pictures -/

/-- A session on an accepted chart never fails in frames of at most one
    second, and afterwards it can be drawn exactly if its position is a
    finite number.  The overlay and the particles always have colours, and
    the overlay is never darker than 160; and unless the tempo is far
    beyond any music, the position is finite too. -/
theorem drawn_unless_position_is_infinite {source : List Char} {session : Session}
    (hread : Chart.ofText source = .ok session.chart)
    (hfresh : session.run = .ofChart session.chart) (hempty : session.particles = .empty)
    (hunits : session.draws.Proper) (moments : List Moment)
    (hdt : ∀ m ∈ moments, Within 0.0 1.0 m.dt) :
    ∃ after, (session.frames moments).result = .ok after ∧ after.chart = session.chart ∧
      (∀ screen draws,
        (∃ rest, (Scene.ofRun screen after.chart after.run after.particles draws).result
          = .ok rest) ↔
        (after.run.elapsed * Tempo.beatRate session.chart.tempo * 4.0).isFinite) ∧
      (session.chart.tempo ≤ fastest →
        (after.run.elapsed * Tempo.beatRate session.chart.tempo * 4.0).isFinite) ∧
      (∀ death, after.run.death = some death →
        ∃ opacity : Nat, opacity ≤ 160 ∧ Colour.overlayOpacity death = .ok opacity) ∧
      (∀ alpha ∈ after.particles.alphas,
        ∃ c : Nat, c ≤ 255 ∧ Colour.faded alpha = .ok ⟨c, c, c, 255⟩) := by
  obtain ⟨tokens, -, hchart⟩ := bind_eq_ok.mp hread
  obtain ⟨-, -, -, -, -, hpos, -, -⟩ := Chart.ofTokens_eq_ok_iff_chained.mp hchart
  -- a fresh session is within bounds, and its frames keep it there
  have hbegin : Steady session := by
    refine ⟨?_, ?_, hunits⟩
    · rw [hfresh]
      exact Run.timed_ofChart session.chart
    · rw [hempty]
      exact Particles.bounded_empty
  have hend := hbegin.moved hdt
  have hsame := moved_chart session moments
  refine ⟨session.moved moments, congrArg Journal.result (frames_eq session moments), hsame,
    ?_, ?_, ?_, ?_⟩
  · rw [hsame]
    exact fun screen draws =>
      Scene.ofRun_succeeds_iff screen session.chart draws hend.clocks hend.sparks
  · exact position_isFinite hend.clocks hpos
  · exact fun death hdeath => Colour.overlayOpacity_eq_ok (hend.clocks.death death hdeath)
  · intro alpha halpha
    exact Colour.faded_eq_ok (hend.sparks.alphas alpha halpha)

/-- A session on a chart with one projectile, after a frame that blocks it. -/
theorem block_is_drawn :
    ∃ session : Session, Chart.ofText "#bpm 120 #offset 0 norm U 0".toList = .ok session.chart ∧
      session.run = .ofChart session.chart ∧ session.particles = .empty ∧
      session.draws.Proper ∧
      ∃ after, (session.frames [⟨0.25, { sides := [.up] }⟩]).result = .ok after ∧
        after.run.score = 1 ∧ ∀ screen draws, ∃ rest,
          (Scene.ofRun screen after.chart after.run after.particles draws).result = .ok rest := by
  let chart : Chart Float :=
    { tempo := 120.0, start := 0.0, events := [{ arrival := 0.0, side := .up }] }
  let session : Session :=
    { level := .sole, chart, run := .ofChart chart, sounds := Level.sole.sounds
      particles := .empty, draws := .cycle #[] }
  have hread : Chart.ofText "#bpm 120 #offset 0 norm U 0".toList = .ok chart :=
    eq_ok_of_toOption (by decide +kernel)
  have hunits : session.draws.Proper := fun n => show Within 0.0 1.0 0.5 by decide +kernel
  have hdt : ∀ m ∈ [(⟨0.25, { sides := [.up] }⟩ : Moment)], Within 0.0 1.0 m.dt := by
    intro m hm
    obtain rfl := List.mem_singleton.mp hm
    decide +kernel
  obtain ⟨after, hafter, -, hdrawn, hfinite, -⟩ :=
    drawn_unless_position_is_infinite hread rfl rfl hunits _ hdt
  have hscore : after.run.score = 1 := by
    rw [frames_eq] at hafter
    obtain rfl := Except.ok.inj hafter
    decide +kernel
  exact ⟨session, hread, rfl, rfl, hunits, after, hafter, hscore, fun screen draws =>
    (hdrawn screen draws).mpr (hfinite (by decide +kernel))⟩

/-- A chart with an infinite tempo is accepted, and its first frame cannot
    be drawn. -/
theorem infinite_tempo_cannot_be_drawn :
    ∃ session after : Session,
      Chart.ofText "#bpm inf #offset 0".toList = .ok session.chart ∧
      session.run = .ofChart session.chart ∧ session.particles = .empty ∧
      session.draws.Proper ∧ (session.frames [⟨0.0, {}⟩]).result = .ok after ∧
      ∀ screen draws,
        ¬ (Scene.ofRun screen after.chart after.run after.particles draws).Succeeds := by
  let chart : Chart Float := { tempo := 1.0 / 0.0, start := 0.0, events := [] }
  let session : Session :=
    { level := .sole, chart, run := .ofChart chart, sounds := Level.sole.sounds
      particles := .empty, draws := .cycle #[] }
  let moments : List Moment := [⟨0.0, {}⟩]
  have hread : Chart.ofText "#bpm inf #offset 0".toList = .ok chart :=
    eq_ok_of_toOption (by decide +kernel)
  have hunits : session.draws.Proper := fun n => show Within 0.0 1.0 0.5 by decide +kernel
  have hbegin : Steady session :=
    ⟨Run.timed_ofChart chart, Particles.bounded_empty, hunits⟩
  have hdt : ∀ m ∈ moments, Within 0.0 1.0 m.dt := by
    intro m hm
    obtain rfl := List.mem_singleton.mp hm
    decide +kernel
  -- the session is within bounds, so nothing but the position can stop the
  -- picture
  have hend := hbegin.moved hdt
  refine ⟨session, session.moved moments, hread, rfl, rfl, hunits,
    congrArg Journal.result (frames_eq session moments), fun screen draws hdrawn => ?_⟩
  have hfinite := (Scene.ofRun_succeeds_iff screen chart draws hend.clocks hend.sparks).mp hdrawn
  exact absurd hfinite (by decide +kernel)

end Session

end BeatShield
