import BeatShield.Proofs.Run.Ring
import Mathlib.Tactic.Ring

/-! # Approach — when a projectile comes nearer

    A distance is the time that a projectile has left times the speed, and
    a live run gains speed in the frame in which it loses that time.  Which
    of the two tells depends on how far ahead the arrival is.

      * `distance_step_lt_iff` compares them in one frame.
      * `OnRamp` — the speed of a live run is known from the time of its
        music, after any requests (`OnRamp.after`).
      * `approaches_when_near` — so a projectile comes nearer exactly if it
        arrives soon enough, and all within 64 seconds do. -/

namespace BeatShield.Run

variable {run : Run Rat}

/-- Whether a run, as long as it is alive, has the speed that it has gained
    since its start. -/
def OnRamp (run : Run Rat) : Prop :=
  run.isDying = false → run.speed = Rules.initialSpeed + run.elapsed * Rules.speedRamp

/-- A fresh run is at the foot of the ramp. -/
theorem onRamp_ofChart (chart : Chart Rat) : OnRamp (Run.ofChart chart) := by
  intro _
  show (Rules.initialSpeed : Rat) = Rules.initialSpeed + 0.0 * Rules.speedRamp
  norm_num

/-! ## One frame of a live run -/

theorem pace_of_alive (h : run.isDying = false) : pace run.death = 1 := by
  rw [isDying_eq_false_iff.mp h, pace_exact]
  norm_num

section

variable [Trig Rat]

/-- The time of a live run moves by the whole frame. -/
theorem elapsed_of_alive (h : run.isDying = false) (tempo dt : Rat) (sides : List Direction) :
    (run.advance tempo dt sides).run.elapsed = run.elapsed + dt := by
  rw [advance_elapsed, pace_of_alive h, mul_one]

/-- Its speed moves up the ramp. -/
theorem speed_of_alive (h : run.isDying = false) (tempo dt : Rat) (sides : List Direction) :
    (run.advance tempo dt sides).run.speed = run.speed + dt * Rules.speedRamp := by
  have halive : ¬ run.isDying = true := by simp [h]
  rw [advance_speed, if_neg halive]

/-- A frame takes off a distance what passes at the new speed, and adds
    what is gained in speed over the time that was left. -/
theorem distance_step (chart : Chart Rat) (h : run.isDying = false) (s : Step Rat)
    (event : Event Rat) :
    (run.step chart s).run.distance chart.tempo event
      = run.distance chart.tempo event
        - s.dt * (chart.tempo / 60)
            * (run.speed + 2 * s.dt - 2 * (event.arrival - run.elapsed)) := by
  rw [step_eq_advance, distance_exact, distance_exact, elapsed_of_alive h, speed_of_alive h,
    Rules.speedRamp_exact]
  ring

/-- A projectile comes nearer exactly if it arrives less than half the
    speed ahead, counted in seconds from the end of the frame. -/
theorem distance_step_lt_iff (chart : Chart Rat) (htempo : 0 < chart.tempo)
    (h : run.isDying = false) {s : Step Rat} (hdt : 0 < s.dt) (event : Event Rat) :
    (run.step chart s).run.distance chart.tempo event < run.distance chart.tempo event ↔
      event.arrival < run.elapsed + run.speed / 2 + s.dt := by
  have hpos : 0 < s.dt * (chart.tempo / 60) := mul_pos hdt (by linarith)
  rw [distance_step chart h, sub_lt_self_iff, mul_pos_iff_of_pos_left hpos]
  constructor <;> intro hlt <;> linarith

/-! ## The speed after any requests -/

/-- Every request leaves a live run on the ramp. -/
theorem OnRamp.answer (h : OnRamp run) (chart : Chart Rat) (request : Request Rat) :
    OnRamp (run.answer chart request).1 := by
  cases hr : request.restarts with
  | true =>
      obtain ⟨earlier, hanswer⟩ := answer_of_restarts chart run hr
      rw [hanswer]
      exact onRamp_ofChart chart
  | false =>
      cases request with
      | restart => exact nomatch hr
      | start => exact h
      | stop => exact h
      | frame dt presses =>
          intro hafter
          -- a run that is alive after the frame was so before
          have halive : run.isDying = false := by
            by_contra hdying
            rw [answer_alive_iff chart (Bool.not_eq_false _ ▸ hdying), hr] at hafter
            exact nomatch hafter
          show (run.frame chart dt presses).run.speed
            = Rules.initialSpeed + (run.frame chart dt presses).run.elapsed * Rules.speedRamp
          rw [frame_of_not_restart run chart dt hr, elapsed_of_alive halive, speed_of_alive halive,
            h halive]
          ring

theorem OnRamp.after (h : OnRamp run) (chart : Chart Rat) (requests : List (Request Rat)) :
    OnRamp (run.after chart requests) := by
  induction requests generalizing run with
  | nil => exact h
  | cons request rest ih => exact ih (h.answer chart request)

/-- If no frame lasts a negative time, the time of the music is not
    negative either. -/
theorem elapsed_nonneg (chart : Chart Rat) {requests : List (Request Rat)}
    (htimely : ∀ request ∈ requests, request.Timely)
    (halive : ((Run.ofChart chart).after chart requests).isDying = false) :
    0 ≤ ((Run.ofChart chart).after chart requests).elapsed := by
  have hslowest : Rules.initialSpeed ≤ ((Run.ofChart chart).after chart requests).speed :=
    initialSpeed_le_speed chart le_rfl htimely
  rw [(onRamp_ofChart chart).after chart requests halive, Rules.speedRamp_exact] at hslowest
  linarith

/-! ## All runs -/

/-- In a frame of a live run a projectile comes nearer exactly if it
    arrives less than 64 seconds and the time played before the frame
    after the end of the frame.  So all that arrive within 64 seconds come
    nearer, and those that are far ahead recede at first. -/
theorem approaches_when_near (chart : Chart Rat) (htempo : 0 < chart.tempo)
    (requests : List (Request Rat)) {s : Step Rat} (hdt : 0 < s.dt) :
    let run := (Run.ofChart chart).after chart requests
    run.isDying = false → ∀ event : Event Rat,
      ((run.step chart s).run.distance chart.tempo event < run.distance chart.tempo event ↔
        event.arrival < run.elapsed + s.dt + (64 + run.elapsed)) ∧
      ((∀ request ∈ requests, request.Timely) → event.arrival ≤ run.elapsed + 64 →
        (run.step chart s).run.distance chart.tempo event < run.distance chart.tempo event) := by
  intro run halive event
  have hiff := distance_step_lt_iff chart htempo halive hdt event
  -- on the ramp the speed is a function of the time, so the bound is too
  have hbound : run.elapsed + run.speed / 2 + s.dt = run.elapsed + s.dt + (64 + run.elapsed) := by
    rw [(onRamp_ofChart chart).after chart requests halive, Rules.initialSpeed_exact,
      Rules.speedRamp_exact]
    ring
  rw [hbound] at hiff
  refine ⟨hiff, fun htimely hnear => hiff.mpr ?_⟩
  have helapsed : 0 ≤ run.elapsed := elapsed_nonneg chart htimely halive
  linarith

end

/-- A projectile that is 80 seconds ahead comes nearer, since the run has
    gained speed for 20 seconds. -/
theorem approach_after_twenty_seconds :
    let _trig : Trig Rat := { pi := 22 / 7, cos := id, sin := id }
    let event : Event Rat := { arrival := 100, side := .up }
    let chart : Chart Rat := { tempo := 60, start := 0, events := [event] }
    let requests : List (Request Rat) := [.start, .frame 20 {}]
    let run := (Run.ofChart chart).after chart requests
    let later := (run.step chart { dt := 1, sides := [] }).run
    0 < chart.tempo ∧ run.isDying = false ∧ event ∈ run.live ∧ event ∈ later.live ∧
      later.distance chart.tempo event < run.distance chart.tempo event := by
  intro _trig event chart requests run later
  have htempo : 0 < chart.tempo := by norm_num [chart]
  have halive : run.isDying = false := by decide +kernel
  have hiff := (approaches_when_near chart htempo requests (s := { dt := 1, sides := [] })
    one_pos halive event).1
  exact ⟨htempo, halive, by decide +kernel, by decide +kernel, hiff.mpr (by decide +kernel)⟩

/-- One that is 100 seconds ahead of a fresh run recedes. -/
theorem distant_projectile_recedes :
    let _trig : Trig Rat := { pi := 22 / 7, cos := id, sin := id }
    let event : Event Rat := { arrival := 100, side := .up }
    let chart : Chart Rat := { tempo := 60, start := 0, events := [event] }
    let run := (Run.ofChart chart).after chart []
    let later := (run.step chart { dt := 1, sides := [] }).run
    0 < chart.tempo ∧ run.isDying = false ∧ event ∈ run.live ∧ event ∈ later.live ∧
      run.distance chart.tempo event = 12848 ∧ later.distance chart.tempo event = 12918 ∧
      ¬ later.distance chart.tempo event < run.distance chart.tempo event := by
  decide +kernel

end BeatShield.Run
