import BeatShield.Proofs.Game.InTune
import BeatShield.Proofs.Run.Request
import BeatShield.Proofs.Session.Opening

/-! # Restart — a restart leaves nothing of the run before it

    A frame of a session never fails, and what it does depends on little:

      * its outcome and its entries depend on the chart, the run and the
        sounds alone (`Alike.advance`), and its particles on those before
        and on the units that are left to draw (`Twins.advance`);
      * by induction sessions that agree in this go on alike through any
        frames to come (`Alike.outputs_eq`, `Alike.journal_eq`,
        `Twins.moved`).

    A restart brings a session into agreement with every newly started
    session on its chart, whatever it was before.  That its own song is
    the one that starts again is an invariant of all sessions that can be
    reached (`Reachable.sounds_eq`). -/

namespace BeatShield

/-! ## Random numbers -/

/-- Whether two streams have the same units left. -/
def Draws.SameRest {α : Type} (one two : Draws α) : Prop :=
  ∀ n, one.source (one.used + n) = two.source (two.used + n)

namespace Draws.SameRest

variable {α : Type} {one two : Draws α}

/-- Streams that have the same left still do after as many units. -/
theorem skip (h : SameRest one two) (count : Nat) :
    SameRest (one.skip count) (two.skip count) := by
  intro n
  show one.source (one.used + count + n) = two.source (two.used + count + n)
  rw [Nat.add_assoc, Nat.add_assoc]
  exact h (count + n)

theorem take_eq (h : SameRest one two) (count : Nat) : one.take count = two.take count :=
  List.map_congr_left fun n _ => h n

theorem picks_eq [Scalar α] (h : SameRest one two) (r : Range α) (count : Nat) :
    (one.picks r count).1 = (two.picks r count).1 :=
  congrArg (List.map r.pick) (h.take_eq count)

end Draws.SameRest

/-- The same units give the same particles. -/
theorem Particles.spawn_sameRest {α : Type} [Scalar α] [Trig α] (p : Particles α)
    (burst : Explosion α) {one two : Draws α} (h : one.SameRest two) :
    (p.spawn burst one).1 = (p.spawn burst two).1 ∧
      (p.spawn burst one).2.SameRest (p.spawn burst two).2 := by
  let n := burst.count
  have hspeeds := h.skip n
  have hrotations := hspeeds.skip n
  have hspins := hrotations.skip n
  -- the four columns are drawn one after the other, each from the same units
  refine ⟨?_, hspins.skip n⟩
  have h₁ := h.picks_eq burst.angle n
  have h₂ := hspeeds.picks_eq burst.speed n
  have h₃ := hrotations.picks_eq burst.rotation n
  have h₄ := hspins.picks_eq burst.spin n
  simp only [spawn]
  congr 1
  · exact congrArg (p.velocities ++ ·) (congrArg₂ (List.zipWith Vec.polar) h₁ h₂)
  · exact congrArg (p.rotations ++ ·) h₃
  · exact congrArg (p.spins ++ ·) h₄

namespace Session

/-- The same units give the same particles, burst after burst. -/
theorem spawnAll_sameRest (particles : Particles Float) (commands : List (Command Float))
    {one two : Draws Float} (h : one.SameRest two) :
    (spawnAll particles one commands).1 = (spawnAll particles two commands).1 ∧
      (spawnAll particles one commands).2.SameRest (spawnAll particles two commands).2 := by
  induction commands generalizing particles one two with
  | nil => exact ⟨rfl, h⟩
  | cons command rest ih =>
      cases command with
      | play sound => exact ih particles h
      | stop sound => exact ih particles h
      | explode burst =>
          obtain ⟨hparticles, hrest⟩ := particles.spawn_sameRest burst h
          simp only [spawnAll]
          rw [hparticles]
          exact ih _ hrest

/-! ## Frames -/

/-- One frame to come: how long it lasts and what is pressed in it. -/
structure Moment where
  dt : Float
  presses : Presses

/-- What the run of a session does in a frame. -/
def output (session : Session) (m : Moment) : Frame Float :=
  session.run.frame session.chart m.dt m.presses

/-- What a frame writes. -/
def written (session : Session) (m : Moment) : List Entry :=
  (session.output m).notices.map (fun notice => .log (.run notice)) ++
    (session.sounds.acts (session.output m).commands).map .sound

/-- The session after a frame. -/
def advance (session : Session) (m : Moment) : Session :=
  let f := session.output m
  let spawned := spawnAll session.particles session.draws f.commands
  { session with
    run := f.run
    particles := if m.presses.restart then .empty else spawned.1.advance f.passed
    draws := spawned.2 }

/-- No frame fails. -/
theorem frame_eq (session : Session) (m : Moment) :
    session.frame m.dt m.presses = ⟨session.written m, .ok (session.advance m)⟩ := by
  show (⟨_ ++ ((_ ++ []) ++ []), _⟩ : Activity Session) = _
  simp only [List.append_nil]
  rfl

/-- Several frames, one after the other. -/
def frames : Session → List Moment → Activity Session
  | session, [] => pure session
  | session, m :: later => do
      let next ← session.frame m.dt m.presses
      frames next later

/-- The session after several frames. -/
def moved (session : Session) (later : List Moment) : Session := later.foldl advance session

/-- What the run does in several frames, frame by frame. -/
def outputs : Session → List Moment → List (Frame Float)
  | _, [] => []
  | session, m :: later => session.output m :: outputs (session.advance m) later

/-- What several frames write. -/
def journal : Session → List Moment → List Entry
  | _, [] => []
  | session, m :: later => session.written m ++ journal (session.advance m) later

/-- So no sequence of frames fails. -/
theorem frames_eq (session : Session) (later : List Moment) :
    session.frames later = ⟨session.journal later, .ok (session.moved later)⟩ := by
  induction later generalizing session with
  | nil => rfl
  | cons m later ih =>
      rw [frames, frame_eq, Journal.bind_of_ok rfl, ih]
      rfl

theorem moved_append (session : Session) (first second : List Moment) :
    session.moved (first ++ second) = (session.moved first).moved second := List.foldl_append

theorem moved_concat (session : Session) (moments : List Moment) (m : Moment) :
    session.moved (moments ++ [m]) = (session.moved moments).advance m :=
  session.moved_append moments [m]

/-- What the run does in the last frame stands last. -/
theorem outputs_concat (session : Session) (moments : List Moment) (m : Moment) :
    session.outputs (moments ++ [m])
      = session.outputs moments ++ [(session.moved moments).output m] := by
  induction moments generalizing session with
  | nil => rfl
  | cons first rest ih => exact congrArg (session.output first :: ·) (ih (session.advance first))

theorem moved_chart (session : Session) (moments : List Moment) :
    (session.moved moments).chart = session.chart := by
  induction moments generalizing session with
  | nil => rfl
  | cons m later ih => exact ih (session.advance m)

/-! ## Sessions that go on alike -/

/-- Sessions on one chart that are in the same state of the run. -/
structure Alike (one two : Session) : Prop where
  chart : one.chart = two.chart
  run : one.run = two.run

/-- Sessions that also have the same particles, and the same units left. -/
structure Twins (one two : Session) : Prop extends Alike one two where
  particles : one.particles = two.particles
  draws : one.draws.SameRest two.draws

variable {one two : Session}

/-- What the run does depends on the chart and the run alone. -/
theorem Alike.output_eq (h : Alike one two) (m : Moment) : one.output m = two.output m := by
  rw [output, output, h.chart, h.run]

/-- So sessions that are alike stay alike. -/
theorem Alike.advance (h : Alike one two) (m : Moment) :
    Alike (one.advance m) (two.advance m) where
  chart := h.chart
  run := congrArg Frame.run (h.output_eq m)

/-- With the same sounds they also write the same. -/
theorem Alike.written_eq (h : Alike one two) (hsounds : one.sounds = two.sounds) (m : Moment) :
    one.written m = two.written m := by
  rw [written, written, h.output_eq m, hsounds]

/-- Sessions that also agree in particles and units go on agreeing in them. -/
theorem Twins.advance (h : Twins one two) (m : Moment) :
    Twins (one.advance m) (two.advance m) := by
  -- both spawn the same bursts, so only the units before them count
  obtain ⟨hparticles, hdraws⟩ :=
    spawnAll_sameRest one.particles (one.output m).commands h.draws
  rw [h.particles, h.output_eq m] at hparticles hdraws
  refine ⟨h.toAlike.advance m, ?_, ?_⟩
  · simp only [Session.advance, h.particles, h.output_eq m]
    rw [hparticles]
  · simp only [Session.advance, h.particles, h.output_eq m]
    exact hdraws

/-- They stay alike through any frames. -/
theorem Alike.moved (h : Alike one two) (later : List Moment) :
    Alike (one.moved later) (two.moved later) := by
  induction later generalizing one two with
  | nil => exact h
  | cons m later ih => exact ih (h.advance m)

theorem Twins.moved (h : Twins one two) (later : List Moment) :
    Twins (one.moved later) (two.moved later) := by
  induction later generalizing one two with
  | nil => exact h
  | cons m later ih => exact ih (h.advance m)

/-- The runs of sessions that are alike do the same in every frame. -/
theorem Alike.outputs_eq (h : Alike one two) (later : List Moment) :
    one.outputs later = two.outputs later := by
  induction later generalizing one two with
  | nil => rfl
  | cons m later ih => rw [outputs, outputs, h.output_eq m, ih (h.advance m)]

/-- All that they write is the same. -/
theorem Alike.journal_eq (h : Alike one two) (hsounds : one.sounds = two.sounds)
    (later : List Moment) : one.journal later = two.journal later := by
  induction later generalizing one two with
  | nil => rfl
  | cons m later ih =>
      rw [journal, journal, h.written_eq hsounds m, ih (h.advance m) hsounds]

/-! ## Sessions that can be reached -/

/-- Loads a level and starts its song. -/
def opened (host : Host) (level : Level) (draws : Draws Float) : Activity Session := do
  let session ← load host level draws
  session.start

/-- The sessions that come about: one that is loaded, and then whatever
    its starts, stops and frames make of it. -/
inductive Reachable : Session → Prop where
  | load {host : Host} {level : Level} {draws : Draws Float} {session : Session}
      (h : (Session.load host level draws).result = .ok session) : Reachable session
  | start {session next : Session} (hreach : Reachable session)
      (h : session.start.result = .ok next) : Reachable next
  | stop {session next : Session} (hreach : Reachable session)
      (h : session.stop.result = .ok next) : Reachable next
  | frame {session next : Session} (hreach : Reachable session) (dt : Float)
      (presses : Presses) (h : (session.frame dt presses).result = .ok next) : Reachable next

/-- A session that comes about has the sounds of its own level. -/
theorem Reachable.sounds_eq {session : Session} (h : Reachable session) :
    session.sounds = session.level.sounds := by
  -- loading takes the level's own sounds, and nothing else touches them
  induction h with
  | load h =>
      obtain ⟨hlevel, hsounds, -⟩ := of_load_eq_ok h
      rw [hsounds, hlevel]
  | start _ h ih =>
      obtain rfl := Except.ok.inj h
      exact ih
  | stop _ h ih =>
      obtain rfl := Except.ok.inj h
      exact ih
  | @frame session next _ dt presses h ih =>
      rw [frame_eq session ⟨dt, presses⟩] at h
      obtain rfl := Except.ok.inj h
      exact ih

/-- A level that is opened begins its run, with its own sounds and without
    particles. -/
theorem of_opened_eq_ok {host : Host} {level : Level} {draws : Draws Float} {session : Session}
    (h : (opened host level draws).result = .ok session) :
    session.sounds = level.sounds ∧ session.run = Run.ofChart session.chart ∧
      session.particles = .empty := by
  obtain ⟨loaded, hload, hstart⟩ := Journal.bind_result_eq_ok.mp h
  obtain ⟨chart, -, hload⟩ := Journal.bind_result_eq_ok.mp hload
  obtain ⟨bank, hbank, hload⟩ := Journal.bind_result_eq_ok.mp hload
  obtain rfl := SoundBank.eq_of_load_eq_ok hbank
  obtain rfl := Except.ok.inj hload
  obtain rfl := Except.ok.inj hstart
  exact ⟨rfl, rfl, rfl⟩

/-! ## The restart -/

section
variable (session : Session) {m : Moment}

/-- A frame that restarts leaves the chart at its beginning. -/
theorem advance_of_restart (h : m.presses.restart = true) :
    (session.advance m).run = Run.ofChart session.chart ∧
      (session.advance m).particles = .empty := by
  refine ⟨?_, if_pos h⟩
  show (session.run.frame session.chart m.dt m.presses).run = _
  rw [Run.frame_of_restart session.run session.chart m.dt h]

/-- What is heard of a frame are the commands of the run. -/
theorem soundActs_written (m : Moment) :
    Entry.soundActs (session.written m) = session.sounds.acts (session.output m).commands := by
  have hlog : Entry.soundActs
      ((session.output m).notices.map (fun notice => .log (.run notice))) = [] := by
    simp [Entry.soundActs]
  rw [written, Entry.soundActs, List.filterMap_append]
  exact (congrArg₂ (· ++ ·) hlog (Entry.soundActs_sounds _)).trans (List.nil_append _)

/-- The song is stopped and played again after all else that is heard in
    the frame. -/
theorem soundActs_of_restart (h : m.presses.restart = true) :
    ∃ earlier, Entry.soundActs (session.written m)
      = earlier ++ [.stop session.sounds.song, .play session.sounds.song] := by
  refine ⟨session.sounds.acts (session.run.advance session.chart.tempo m.dt
    m.presses.sides).commands, ?_⟩
  rw [soundActs_written, output, Run.frame_of_restart session.run session.chart m.dt h]
  exact List.filterMap_append

end

/-- Whatever the session was before, a restart leaves the run of its chart
    at its beginning and no particles, and the last that is heard is that
    its song starts again.  From then on it cannot be told from any newly
    started session on the same chart: every frame has the same outcome,
    the same is written if the songs are the same, and the particles are
    the same if the same random numbers are left. -/
theorem restart_forgets_everything {session : Session} (hreach : Reachable session)
    (dt : Float) {presses : Presses} (hrestart : presses.restart = true) :
    ∃ after, (session.frame dt presses).result = .ok after ∧
      after.run = Run.ofChart session.chart ∧ after.chart = session.chart ∧
      after.particles = .empty ∧
      (∃ earlier, Entry.soundActs (session.frame dt presses).entries
        = earlier ++ [.stop session.level.songPath.text, .play session.level.songPath.text]) ∧
      ∀ (host : Host) (level : Level) (draws : Draws Float) (fresh : Session),
        (opened host level draws).result = .ok fresh → fresh.chart = session.chart →
          ∀ later, ∃ end₁ end₂, (after.frames later).result = .ok end₁ ∧
            (fresh.frames later).result = .ok end₂ ∧
            end₁.run = end₂.run ∧
            after.outputs later = fresh.outputs later ∧
            (level.songPath = session.level.songPath →
              (after.frames later).entries = (fresh.frames later).entries) ∧
            (after.draws.SameRest fresh.draws → end₁.particles = end₂.particles) := by
  have hframe := frame_eq session ⟨dt, presses⟩
  have hown := hreach.sounds_eq
  obtain ⟨hrun, hparticles⟩ := session.advance_of_restart (m := ⟨dt, presses⟩) hrestart
  refine ⟨session.advance ⟨dt, presses⟩, ?_, hrun, rfl, hparticles, ?_, ?_⟩
  · exact congrArg Journal.result hframe
  · obtain ⟨earlier, hearlier⟩ := session.soundActs_of_restart (m := ⟨dt, presses⟩) hrestart
    rw [hown] at hearlier
    exact ⟨earlier, (congrArg (fun x => Entry.soundActs x.entries) hframe).trans hearlier⟩
  · intro host level draws fresh hfresh hchart later
    obtain ⟨hbank, hbegun, hclear⟩ := of_opened_eq_ok hfresh
    have halike : Alike (session.advance ⟨dt, presses⟩) fresh :=
      ⟨hchart.symm, by rw [hrun, hbegun, hchart]⟩
    -- no frame fails, so the comparison is one of what is left and written
    simp only [frames_eq]
    refine ⟨_, _, rfl, rfl, (halike.moved later).run, halike.outputs_eq later, ?_, ?_⟩
    · intro hsong
      refine halike.journal_eq ?_ later
      show session.sounds = fresh.sounds
      rw [hown, hbank, Level.sounds, Level.sounds, hsong]
    · intro hdraws
      -- neither has particles, so with the same units they are twins
      have htwins : Twins (session.advance ⟨dt, presses⟩) fresh :=
        ⟨halike, hparticles.trans hclear.symm, hdraws⟩
      exact (htwins.moved later).particles

/-- A session whose run ended when nothing was shielded is as good as new
    after a restart in one of its last frames. -/
theorem dead_session_starts_over :
    ∃ session after, Reachable session ∧ session.run.isDying = true ∧
      (session.frame 0.25 { restart := true }).result = .ok after ∧
      after.run = Run.ofChart session.chart ∧ after.particles = .empty := by
  let host : Host :=
    { files := .ofSheet "#bpm 60 #offset 0 norm R 4".toUTF8, speakers := fun _ => none }
  let blow : Moment := { dt := 5.0, presses := {} }
  have hdying : (load host .sole (Draws.cycle #[])).result.toOption.map
      (fun loaded => (loaded.advance blow).run.isDying) = some true := by decide +kernel
  obtain ⟨loaded, hload, hdying⟩ := Option.map_eq_some_iff.mp hdying
  have hloaded : Reachable loaded := .load (Checked.eq_ok_of_toOption hload)
  have hstarted : Reachable loaded := .start hloaded rfl
  have hdead : Reachable (loaded.advance blow) :=
    .frame hstarted blow.dt blow.presses (congrArg Journal.result (frame_eq loaded blow))
  have hrestart : ({ restart := true } : Presses).restart = true := rfl
  obtain ⟨after, hafter, hrun, -, hparticles, -⟩ := restart_forgets_everything hdead 0.25 hrestart
  exact ⟨_, after, hdead, hdying, hafter, hrun, hparticles⟩

end Session

end BeatShield
