import BeatShield.Proofs.Run.Death
import BeatShield.Proofs.Run.Exact
import Mathlib.Tactic.Ring

/-! # SlowMotion — the music that is left after a hit

    A dying run goes on at the pace `1 - t`, where `t` is the real time
    since the hit, but every frame keeps the pace that it begins with.
    What passes is therefore a left sum of a falling line, and exceeds the
    area `ramp t` under the line by what sticks out above it.

      * `Tail` bounds what sticks out: a frame of length `dt` adds half
        its square, and the last one overshoots the end of the line.
      * `Tail.frame` keeps these bounds in one frame, however long the
        frames before it were, and `tail_of_steps` in all of them.
      * At the end of the line nothing passes (`passed_of_still`,
        `elapsed_of_still`). -/

namespace BeatShield.Run

/-! ## The falling pace -/

/-- In the first second the pace falls in a line. -/
theorem pace_of_le_one {time : Rat} (h : time ≤ 1) : pace (some time) = 1 - time := by
  rw [pace_exact]
  exact max_eq_right (sub_nonneg.mpr h)

theorem pace_of_one_le {time : Rat} (h : 1 ≤ time) : pace (some time) = 0 := by
  rw [pace_exact]
  exact max_eq_left (sub_nonpos.mpr h)

/-- The area under the falling pace, from the hit up to a time. -/
def ramp (time : Rat) : Rat := time - time * time / 2

/-- The area grows by a strip under the line, and the strip's upper corner
    is cut off. -/
theorem ramp_add (time dt : Rat) :
    ramp (time + dt) = ramp time + dt * (1 - time) - dt * dt / 2 := by
  rw [ramp, ramp]
  ring

/-- How much can have passed at a real time after the hit, if no frame was
    longer than `longest`. -/
structure Tail (longest time passed : Rat) : Prop where
  ramp_le : time < 1 → ramp time ≤ passed
  le_ramp : time < 1 → passed ≤ ramp time + longest / 2 * time
  half_le : 1 ≤ time → 1 / 2 ≤ passed
  le_whole : passed ≤ 1 / 2 + longest / 2 + longest * longest / 8

namespace Tail

variable {longest time passed dt : Rat}

/-- Right after the hit nothing has passed. -/
theorem begins (longest : Rat) : Tail longest 0 0 where
  ramp_le _ := by norm_num [ramp]
  le_ramp _ := by norm_num [ramp]
  half_le h := absurd h (by norm_num)
  le_whole := by
    have hsquare := sq_nonneg (2 + longest)
    linarith

/-- A frame that begins before the pace has fallen to zero. -/
theorem frame_of_lt (h : Tail longest time passed) (htime : time < 1) (hdt : 0 ≤ dt)
    (hle : dt ≤ longest) : Tail longest (time + dt) (passed + dt * (1 - time)) where
  ramp_le _ := by
    have hbelow := h.ramp_le htime
    have hsquare := mul_self_nonneg dt
    rw [ramp_add]
    linarith
  le_ramp _ := by
    have habove := h.le_ramp htime
    have hsquare : dt * dt ≤ longest * dt := mul_le_mul_of_nonneg_right hle hdt
    rw [ramp_add]
    linarith
  half_le hend := by
    -- the frame covers the rest of the line at the pace it begins with
    have hbelow := h.ramp_le htime
    have hrest : (1 - time) * (1 - time) ≤ dt * (1 - time) :=
      mul_le_mul_of_nonneg_right (by linarith) (by linarith)
    have hsquare := mul_self_nonneg (1 - time)
    rw [ramp] at hbelow
    linarith
  le_whole := by
    -- the overshoot is greatest half a frame before the end of the line
    have habove := h.le_ramp htime
    have hlast : dt * (1 - time) ≤ longest * (1 - time) :=
      mul_le_mul_of_nonneg_right hle (by linarith)
    have hsquare := sq_nonneg (1 - longest / 2 - time)
    rw [ramp] at habove
    linarith

/-- Whatever has passed by then, a frame keeps the bounds. -/
theorem frame (h : Tail longest time passed) (hdt : 0 ≤ dt) (hle : dt ≤ longest) :
    Tail longest (time + dt) (passed + dt * pace (some time)) := by
  rcases lt_or_ge time 1 with htime | htime
  · rw [pace_of_le_one htime.le]
    exact h.frame_of_lt htime hdt hle
  · have hlater : 1 ≤ time + dt := le_add_of_le_of_nonneg htime hdt
    rw [pace_of_one_le htime, mul_zero, add_zero]
    exact {
      ramp_le := fun hlt => absurd hlt (not_lt.mpr hlater)
      le_ramp := fun hlt => absurd hlt (not_lt.mpr hlater)
      half_le := fun _ => h.half_le htime
      le_whole := h.le_whole }

end Tail

/-! ## The frames of a dying run -/

section

variable {run : Run Rat} {longest time : Rat} {list : List (Step Rat)}

/-- Real time does not go back. -/
theorem le_realTime (h : ∀ s ∈ list, 0 ≤ s.dt) : time ≤ realTime time list := by
  induction list generalizing time with
  | nil => exact le_rfl
  | cons s later ih =>
      obtain ⟨hdt, hlater⟩ := List.forall_mem_cons.mp h
      exact (le_add_of_nonneg_right hdt).trans (ih hlater)

variable [Trig Rat]

/-- The clock of the death shows the real time since the hit. -/
theorem death_of_steps (chart : Chart Rat) (hdeath : run.death = some time) :
    (run.steps chart list).death = some (realTime time list) := by
  obtain ⟨elapsed, hlater⟩ := steps_of_dying chart hdeath list
  rw [hlater]

/-- The bounds hold after any frames of a dying run. -/
theorem tail_of_steps (chart : Chart Rat) (hdeath : run.death = some time) {start : Rat}
    (htail : Tail longest time (run.elapsed - start))
    (h : ∀ s ∈ list, 0 ≤ s.dt ∧ s.dt ≤ longest) :
    Tail longest (realTime time list) ((run.steps chart list).elapsed - start) := by
  induction list generalizing run time with
  | nil => exact htail
  | cons s later ih =>
      obtain ⟨⟨hdt, hle⟩, hlater⟩ := List.forall_mem_cons.mp h
      have hframe := htail.frame hdt hle
      rw [← add_sub_right_comm, ← elapsed_of_step chart hdeath s] at hframe
      exact ih (death_of_step chart hdeath s) hframe hlater

/-- Once the pace has fallen to zero nothing passes in a frame. -/
theorem passed_of_still (chart : Chart Rat) (hdeath : run.death = some time) (htime : 1 ≤ time)
    (s : Step Rat) : (run.step chart s).passed = 0 := by
  rw [step_eq_advance, advance_of_dying hdeath]
  show s.dt * pace (some time) = 0
  rw [pace_of_one_le htime, mul_zero]

/-- So the time of the music stands still. -/
theorem elapsed_of_still (chart : Chart Rat) (hdeath : run.death = some time) (htime : 1 ≤ time)
    (h : ∀ s ∈ list, 0 ≤ s.dt) : (run.steps chart list).elapsed = run.elapsed := by
  induction list generalizing run time with
  | nil => rfl
  | cons s later ih =>
      obtain ⟨hdt, hlater⟩ := List.forall_mem_cons.mp h
      have hrest := ih (death_of_step chart hdeath s) (le_add_of_le_of_nonneg htime hdt) hlater
      refine hrest.trans ?_
      rw [elapsed_of_step chart hdeath s, pace_of_one_le htime, mul_zero, add_zero]

/-- From the frame that ends a run on, the music goes on for half a second
    and an excess that depends on the longest frame alone.  It has had its
    half second when a second of real time is over, and what begins after
    that does not move it any more. -/
theorem slow_motion_has_a_bounded_tail (chart : Chart Rat) {run : Run Rat}
    (halive : run.isDying = false) (fatal : Step Rat)
    (hdying : (run.step chart fatal).run.isDying = true)
    (h : ∀ s ∈ list, 0 ≤ s.dt ∧ s.dt ≤ longest) :
    let struck := (run.step chart fatal).run
    let later := struck.steps chart list
    struck.death = some 0 ∧ later.death = some (realTime 0 list) ∧
      later.elapsed - struck.elapsed ≤ 1 / 2 + longest / 2 + longest * longest / 8 ∧
      (1 ≤ realTime 0 list → 1 / 2 ≤ later.elapsed - struck.elapsed) ∧
      ∀ before after time, list = before ++ after →
        (struck.steps chart before).death = some time → 1 ≤ time →
          later.elapsed = (struck.steps chart before).elapsed ∧
          ∀ earlier s rest, after = earlier ++ s :: rest →
            ((struck.steps chart (before ++ earlier)).step chart s).passed = 0 := by
  intro struck later
  have hdeath : struck.death = some 0 := by
    have hzero := step_death_eq_zero chart halive fatal hdying
    norm_num at hzero
    exact hzero
  -- the tail begins with nothing passed, and is followed through the frames
  have hbegins : Tail longest 0 (struck.elapsed - struck.elapsed) := by
    rw [sub_self]
    exact .begins longest
  have htail := tail_of_steps chart hdeath hbegins h
  refine ⟨hdeath, death_of_steps chart hdeath, htail.le_whole, htail.half_le, ?_⟩
  intro before after time hlist htime hfull
  -- once the second is over, the frames behind it stand still
  have hafter : ∀ s ∈ after, 0 ≤ s.dt := by
    intro s hs
    exact (h s (hlist ▸ List.mem_append_right before hs)).1
  constructor
  · show (struck.steps chart list).elapsed = _
    rw [hlist, steps_append]
    exact elapsed_of_still chart htime hfull hafter
  · rintro earlier s rest rfl
    have hearlier : ∀ s ∈ earlier, 0 ≤ s.dt := by
      intro s hs
      exact hafter s (List.mem_append_left _ hs)
    rw [steps_append]
    exact passed_of_still chart (death_of_steps chart htime) (hfull.trans (le_realTime hearlier)) s

end

/-- With frames of two thirds of a second the bound is reached, and the
    frame after that passes without music. -/
theorem tail_of_long_frames :
    let _trig : Trig Rat := { pi := 22 / 7, cos := id, sin := id }
    let chart : Chart Rat := { tempo := 60, start := 0, events := [{ arrival := 0, side := .up }] }
    let run := Run.ofChart chart
    let fatal : Step Rat := { dt := 1, sides := [] }
    let long : Step Rat := { dt := 2 / 3, sides := [] }
    let last : Step Rat := { dt := 1 / 4, sides := [.up] }
    let struck := (run.step chart fatal).run
    run.isDying = false ∧ struck.isDying = true ∧
      (struck.steps chart [long, long]).elapsed - struck.elapsed
        = 1 / 2 + 2 / 3 / 2 + 2 / 3 * (2 / 3) / 8 ∧
      (struck.steps chart [long, long, last]).elapsed
        = (struck.steps chart [long, long]).elapsed ∧
      ((struck.steps chart [long, long]).step chart last).passed = 0 := by
  intro _trig chart run fatal long last struck
  have halive : run.isDying = false := rfl
  have hdying : struck.isDying = true := by decide +kernel
  have hframes : ∀ s ∈ [long, long, last], 0 ≤ s.dt ∧ s.dt ≤ 2 / 3 := by
    simp [long, last]
    norm_num
  obtain ⟨-, -, -, -, hstill⟩ := slow_motion_has_a_bounded_tail chart halive fatal hdying hframes
  obtain ⟨hsame, hframe⟩ :=
    hstill [long, long] [last] (4 / 3) rfl (by decide +kernel) (by norm_num)
  exact ⟨halive, hdying, by decide +kernel, hsame, hframe [] last [] rfl⟩

end BeatShield.Run
