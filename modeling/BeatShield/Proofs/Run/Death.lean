import BeatShield.Number.Binary
import BeatShield.Proofs.Run.Request

/-! # Death — a run ends once, and then stands still

    A frame ends a live run exactly if some projectile hits in it, however
    many do.  Only that frame stops a sound or plays the death sound, and
    it does both once.

      * `settle_unending`, `settle_endsOnce` — the commands of one frame,
        read off its first hit;
      * `steps_of_dying` — afterwards only the two clocks move, by
        induction on the frames;
      * `death_happens_once` — both put together over all restart-free
        sequences of frames. -/

namespace BeatShield

/-- Whether a command belongs to the end of a run: it stops a sound or
    plays the death sound. -/
def Command.isEnding {α : Type} : Command α → Bool
  | .stop _ => true
  | .play .death => true
  | _ => false

/-- Commands without an end. -/
def Command.Unending {α : Type} (commands : List (Command α)) : Prop :=
  ∀ command ∈ commands, command.isEnding = false

/-- Commands that stop the song and play the death sound next to each
    other, and contain no other part of an end. -/
def Command.EndsOnce {α : Type} (commands : List (Command α)) : Prop :=
  ∃ earlier later, commands = earlier ++ .stop .song :: .play .death :: later ∧
    Unending earlier ∧ Unending later

namespace Run

open Command

variable {α : Type} [Scalar α] [Trig α]

/-- A frame in which nothing restarts: its length and the sides pressed. -/
structure Step (α : Type) where
  dt : α
  sides : List Direction

/-- One frame without a restart. -/
def step (chart : Chart α) (run : Run α) (s : Step α) : Frame α :=
  run.frame chart s.dt { sides := s.sides }

/-- The run after several frames without a restart. -/
def steps (chart : Chart α) (run : Run α) (list : List (Step α)) : Run α :=
  list.foldl (fun run s => (run.step chart s).run) run

/-- A time that goes on in real time, frame by frame. -/
def realTime (time : α) (list : List (Step α)) : α :=
  list.foldl (fun time s => time + s.dt) time

theorem steps_append (chart : Chart α) (run : Run α) (first second : List (Step α)) :
    run.steps chart (first ++ second) = (run.steps chart first).steps chart second :=
  List.foldl_append

/-- The last frame goes on from those before it. -/
theorem steps_concat (chart : Chart α) (run : Run α) (before : List (Step α)) (s : Step α) :
    run.steps chart (before ++ [s]) = ((run.steps chart before).step chart s).run := by
  rw [steps_append]
  rfl

/-- A frame without presses of the restart key only advances the run. -/
theorem step_eq_advance (chart : Chart α) (run : Run α) (s : Step α) :
    run.step chart s = run.advance chart.tempo s.dt s.sides :=
  frame_of_not_restart run chart s.dt rfl

/-! ## The commands of a frame -/

/-- Blocks neither stop a sound nor play the death sound. -/
theorem volleys_unending (tempo : α) (run : Run α) (events : List (Event α)) :
    Unending (run.volleys tempo events) := by
  intro command hmem
  rcases eq_of_mem_volleys hmem with rfl | ⟨burst, rfl⟩
  · rfl
  · rfl

/-- Without a hit nothing ends. -/
theorem settle_unending (tempo : α) (run : Run α) (events : List (Event α))
    (hcalm : ∀ event ∈ events, run.outcome tempo event ≠ .hit) :
    Unending (settle tempo run events).commands := by
  rw [settle_calm tempo run events (.inr hcalm)]
  exact volleys_unending tempo run events

/-- With one hit or with many, a live run ends once. -/
theorem settle_endsOnce (tempo : α) (run : Run α) (events : List (Event α))
    (halive : run.isDying = false) (hhit : ∃ event ∈ events, run.outcome tempo event = .hit) :
    EndsOnce (settle tempo run events).commands := by
  rcases calm_or_first_hit tempo run events with hcalm | ⟨before, event, after, rfl, hno, hfirst⟩
  · obtain ⟨event, hmem, hhit⟩ := hhit
    exact absurd hhit (hcalm event hmem)
  · rw [settle_first_hit tempo run before event after halive hno hfirst]
    exact ⟨_, _, rfl, volleys_unending tempo run before, volleys_unending tempo run after⟩

/-- A live run is dying after a frame exactly if some live projectile hits,
    judged after the frame's time has passed and the shield is turned. -/
theorem step_isDying_iff (chart : Chart α) {run : Run α} (halive : run.isDying = false)
    (s : Step α) :
    (run.step chart s).run.isDying = true ↔
      ∃ event ∈ run.live, (run.judging s.dt s.sides).outcome chart.tempo event = .hit := by
  rw [step_eq_advance, advance_of_alive halive]
  exact settle_isDying_iff chart.tempo (run.judging s.dt s.sides) run.live halive

/-- A frame that leaves the run alive commands no part of an end. -/
theorem step_unending (chart : Chart α) {run : Run α} (halive : run.isDying = false)
    (s : Step α) (hafter : (run.step chart s).run.isDying = false) :
    Unending (run.step chart s).commands := by
  have hcalm : ∀ event ∈ run.live,
      (run.judging s.dt s.sides).outcome chart.tempo event ≠ .hit := by
    intro event hmem hhit
    have hdying := (step_isDying_iff chart halive s).mpr ⟨event, hmem, hhit⟩
    rw [hafter] at hdying
    exact nomatch hdying
  rw [step_eq_advance, advance_of_alive halive]
  exact settle_unending chart.tempo (run.judging s.dt s.sides) run.live hcalm

/-- The frame in which it dies commands the end once, whatever else it
    commands. -/
theorem step_endsOnce (chart : Chart α) {run : Run α} (halive : run.isDying = false)
    (s : Step α) (hafter : (run.step chart s).run.isDying = true) :
    EndsOnce (run.step chart s).commands := by
  have hhit := (step_isDying_iff chart halive s).mp hafter
  rw [step_eq_advance, advance_of_alive halive]
  exact settle_endsOnce chart.tempo (run.judging s.dt s.sides) run.live halive hhit

/-- The time since death begins at zero. -/
theorem step_death_eq_zero (chart : Chart α) {run : Run α} (halive : run.isDying = false)
    (s : Step α) (hafter : (run.step chart s).run.isDying = true) :
    (run.step chart s).run.death = some 0.0 := by
  obtain ⟨event, hmem, hhit⟩ := (step_isDying_iff chart halive s).mp hafter
  have hjudging : (run.judging s.dt s.sides).isDying = false := halive
  rw [step_eq_advance, advance_of_alive halive]
  show (settle chart.tempo (run.judging s.dt s.sides) run.live).run.death = some 0.0
  rcases calm_or_first_hit chart.tempo (run.judging s.dt s.sides) run.live with
    hcalm | ⟨before, first, after, hlive, hno, hfirst⟩
  · exact absurd hhit (hcalm event hmem)
  · rw [hlive, settle_first_hit chart.tempo _ before first after hjudging hno hfirst]
    rfl

/-! ## The frames after death -/

/-- In a frame of a dying run only the two clocks move. -/
theorem step_of_dying (chart : Chart α) {run : Run α} {time : α} (h : run.death = some time)
    (s : Step α) :
    (run.step chart s).commands = [] ∧
      (run.step chart s).run
        = { run with
            elapsed := run.elapsed + s.dt * pace (some time)
            death := some (time + s.dt) } := by
  rw [step_eq_advance, advance_of_dying h]
  exact ⟨rfl, rfl⟩

/-- The clock of the death runs in real time. -/
theorem death_of_step (chart : Chart α) {run : Run α} {time : α} (h : run.death = some time)
    (s : Step α) : (run.step chart s).run.death = some (time + s.dt) := by
  obtain ⟨-, hrun⟩ := step_of_dying chart h s
  rw [hrun]

/-- The clock of the music runs at the falling pace. -/
theorem elapsed_of_step (chart : Chart α) {run : Run α} {time : α} (h : run.death = some time)
    (s : Step α) : (run.step chart s).run.elapsed = run.elapsed + s.dt * pace (some time) := by
  obtain ⟨-, hrun⟩ := step_of_dying chart h s
  rw [hrun]

/-- While a run is dying, only the time of the music and the time since
    death change. -/
theorem steps_of_dying (chart : Chart α) {run : Run α} {time : α} (h : run.death = some time)
    (list : List (Step α)) :
    ∃ elapsed, run.steps chart list
      = { run with elapsed, death := some (realTime time list) } := by
  induction list generalizing run time with
  | nil =>
      refine ⟨run.elapsed, ?_⟩
      show run = { run with elapsed := run.elapsed, death := some time }
      rw [← h]
  | cons s later ih =>
      obtain ⟨-, hrun⟩ := step_of_dying chart h s
      -- the frames behind go on from a death that is later by this one
      obtain ⟨elapsed, hlater⟩ := ih (death_of_step chart h s)
      refine ⟨elapsed, ?_⟩
      show (run.step chart s).run.steps chart later = _
      rw [hlater, hrun]
      rfl

/-- A run that is alive has been alive all along. -/
theorem alive_of_steps_alive (chart : Chart α) (run : Run α) (first second : List (Step α))
    (h : (run.steps chart (first ++ second)).isDying = false) :
    (run.steps chart first).isDying = false := by
  cases hd : (run.steps chart first).isDying with
  | false => rfl
  | true =>
      -- a run that is dying stays so, but this one is alive in the end
      obtain ⟨time, htime⟩ := Option.isSome_iff_exists.mp hd
      obtain ⟨elapsed, hsecond⟩ := steps_of_dying chart htime second
      rw [steps_append, hsecond] at h
      exact nomatch h

/-- Only a restart brings a dying run back to life. -/
theorem answer_alive_iff (chart : Chart α) {run : Run α} (hdying : run.isDying = true)
    (request : Request α) :
    (run.answer chart request).1.isDying = false ↔ request.restarts = true := by
  cases hr : request.restarts with
  | true =>
      obtain ⟨earlier, hanswer⟩ := answer_of_restarts chart run hr
      rw [hanswer]
      exact ⟨fun _ => rfl, fun _ => rfl⟩
  | false =>
      -- nothing but a restart brings a dying run back
      have hstill : (run.answer chart request).1.isDying = true := by
        cases request with
        | frame dt presses =>
            obtain ⟨time, htime⟩ := Option.isSome_iff_exists.mp hdying
            show (run.frame chart dt presses).run.isDying = true
            rw [frame_of_not_restart run chart dt hr, advance_of_dying htime]
            rfl
        | restart => exact nomatch hr
        | start => exact hdying
        | stop => exact hdying
      rw [hstill]
      exact ⟨fun h => (nomatch h), fun h => (nomatch h)⟩

/-! ## The whole course of a run -/

/-- Along every sequence of frames without a restart, from the fresh run
    that a restart also leads to: a live run dies in a frame exactly if a
    projectile hits; that frame alone stops the song and plays the death
    sound, once and side by side; and every later frame returns nothing and
    moves nothing but the two clocks.  Only a restart ends this. -/
theorem death_happens_once (chart : Chart α) :
    (∀ (run : Run α) (request : Request α), request.restarts = true →
      (run.answer chart request).1 = Run.ofChart chart) ∧
    (∀ (before : List (Step α)) (s : Step α) (later : List (Step α)),
      let run := (Run.ofChart chart).steps chart before
      let f := run.step chart s
      run.isDying = false →
        (f.run.isDying = true ↔ ∃ event ∈ run.live,
          (run.judging s.dt s.sides).outcome chart.tempo event = .hit) ∧
        (f.run.isDying = false → Unending f.commands) ∧
        (f.run.isDying = true →
          EndsOnce f.commands ∧ f.run.death = some 0.0 ∧
          (∀ earlier s' rest, before = earlier ++ s' :: rest →
            Unending (((Run.ofChart chart).steps chart earlier).step chart s').commands) ∧
          (∀ earlier s' rest, later = earlier ++ s' :: rest →
            let dying := f.run.steps chart earlier
            (dying.step chart s').commands = [] ∧
            (dying.step chart s').run
              = { f.run with
                  elapsed := dying.elapsed + s'.dt * pace dying.death
                  death := some (realTime 0.0 (earlier ++ [s'])) }))) ∧
    (∀ (run : Run α) (request : Request α), run.isDying = true →
      ((run.answer chart request).1.isDying = false ↔ request.restarts = true)) := by
  refine ⟨?_, ?_, fun run request hdying => answer_alive_iff chart hdying request⟩
  · intro run request hr
    obtain ⟨earlier, hanswer⟩ := answer_of_restarts chart run hr
    rw [hanswer]
  · intro before s later run f halive
    refine ⟨step_isDying_iff chart halive s, step_unending chart halive s, ?_⟩
    intro hdying
    refine ⟨step_endsOnce chart halive s hdying, step_death_eq_zero chart halive s hdying, ?_, ?_⟩
    · -- before the fatal frame the run is alive on both sides of every frame
      intro earlier s' rest hbefore
      have halive' : ((Run.ofChart chart).steps chart (earlier ++ s' :: rest)).isDying = false := by
        rw [← hbefore]
        exact halive
      have hbegin := alive_of_steps_alive chart _ earlier (s' :: rest) halive'
      have hend := alive_of_steps_alive chart _ (earlier ++ [s']) rest
        (by rw [List.append_assoc]; exact halive')
      rw [steps_append] at hend
      exact step_unending chart hbegin s' hend
    · -- after it the time since death is known, and with it the whole run
      intro earlier s' rest _ dying
      have hzero := step_death_eq_zero chart halive s hdying
      obtain ⟨elapsed, hdead⟩ := steps_of_dying chart hzero earlier
      have hdeath : dying.death = some (realTime 0.0 earlier) := by
        show (f.run.steps chart earlier).death = _
        rw [hdead]
      obtain ⟨hcommands, hrun⟩ := step_of_dying chart hdeath s'
      refine ⟨hcommands, ?_⟩
      have hsum : realTime 0.0 (earlier ++ [s']) = realTime 0.0 earlier + s'.dt :=
        List.foldl_append
      have hdying' : dying = { f.run with elapsed, death := some (realTime 0.0 earlier) } := hdead
      rw [hrun, hdeath, hsum, hdying']

/-- A projectile that has long arrived kills an unshielded run, and a
    shield that is turned to it half a second later is of no use. -/
theorem late_shield_is_no_use :
    let chart : Chart Float := { tempo := 60.0, start := 0.0, events := [⟨0.0, .up, .normal⟩] }
    let run := (Run.ofChart chart).steps chart []
    let f := run.step chart { dt := 1.0, sides := [] }
    run.isDying = false ∧ f.run.isDying = true ∧ EndsOnce f.commands ∧
      (f.run.step chart { dt := 0.5, sides := [.up] }).commands = [] := by
  intro chart run f
  have halive : run.isDying = false := rfl
  obtain ⟨hiff, -, hdead⟩ := (death_happens_once chart).2.1 []
    { dt := 1.0, sides := [] } [{ dt := 0.5, sides := [.up] }] halive
  have hdying : f.run.isDying = true :=
    hiff.mpr ⟨⟨0.0, .up, .normal⟩, List.mem_cons_self, by decide +kernel⟩
  obtain ⟨hends, -, -, hlater⟩ := hdead hdying
  exact ⟨halive, hdying, hends, (hlater [] _ [] rfl).1⟩

end Run

end BeatShield
