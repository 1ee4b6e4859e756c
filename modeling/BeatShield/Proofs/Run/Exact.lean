import BeatShield.Proofs.Run.Apart
import Mathlib.Algebra.Order.Field.Rat
import Mathlib.Tactic.Linarith

/-! # Exact — the clocks of a run in exact arithmetic

    Over the rationals nothing is rounded, so the constants of the rules
    are the fractions that they are written as, and a run can be followed
    by ordinary arithmetic.

      * `advance_elapsed`, `advance_speed` — what a frame does to the time
        and to the speed, alive or dying.
      * `Onward` — neither of them ever goes back, unless the run starts
        over (`after_onward`).
      * `initialSpeed_le_speed` — so the speed is never below the one at
        the start. -/

namespace BeatShield

/-! ## Constants -/

theorem Rules.shieldRadius_exact : (Rules.shieldRadius : Rat) = 48 := by
  norm_num [Rules.shieldRadius]

theorem Rules.hurtRadius_exact : (Rules.hurtRadius : Rat) = 16 := by
  norm_num [Rules.hurtRadius]

theorem Rules.initialSpeed_exact : (Rules.initialSpeed : Rat) = 128 := by
  norm_num [Rules.initialSpeed]

theorem Rules.speedRamp_exact : (Rules.speedRamp : Rat) = 2 := by
  norm_num [Rules.speedRamp]

/-- The beats of a second are a sixtieth of those of a minute. -/
theorem Tempo.beatRate_exact (tempo : Rat) : Tempo.beatRate tempo = tempo / 60 := by
  norm_num [Tempo.beatRate]

theorem Scalar.atLeast_exact (x y : Rat) : Scalar.atLeast x y = max x y := by
  unfold Scalar.atLeast
  split
  · rw [max_eq_right (by linarith)]
  · rw [max_eq_left (by linarith)]

namespace Run

/-! ## One frame -/

section

variable {α : Type} [Scalar α] [Trig α]

/-- A frame moves the time by its length at the pace of the run. -/
theorem advance_elapsed (run : Run α) (tempo dt : α) (sides : List Direction) :
    (run.advance tempo dt sides).run.elapsed = run.elapsed + dt * pace run.death := by
  cases hd : run.death with
  | some death => rw [advance_of_dying hd]
  | none =>
      have halive : run.isDying = false := isDying_eq_false_iff.mpr hd
      rw [advance_of_alive halive, ← hd]
      exact (settle_inStep tempo (run.judging dt sides) run.live halive).elapsed

/-- Only a live run becomes faster. -/
theorem advance_speed (run : Run α) (tempo dt : α) (sides : List Direction) :
    (run.advance tempo dt sides).run.speed
      = if run.isDying then run.speed else run.speed + dt * Rules.speedRamp := by
  cases hd : run.isDying with
  | true =>
      obtain ⟨death, hdeath⟩ := Option.isSome_iff_exists.mp hd
      rw [advance_of_dying hdeath]
      rfl
  | false =>
      have hsettled := settle_inStep tempo (run.judging dt sides) run.live hd
      rw [advance_of_alive hd]
      show (settle tempo (run.judging dt sides) run.live).run.speed + dt * Rules.speedRamp = _
      rw [hsettled.speed]
      rfl

end

/-- The pace falls from one to zero in the second after a hit. -/
theorem pace_exact (death : Option Rat) : pace death = max 0 (1 - death.getD 0) := by
  rw [pace, Scalar.atLeast_exact]
  norm_num

theorem pace_nonneg (death : Option Rat) : 0 ≤ pace death := by
  rw [pace_exact]
  exact le_max_left _ _

/-! ## Time and speed never go back -/

/-- A run and a later one that is at least as far and as fast. -/
structure Onward (run later : Run Rat) : Prop where
  elapsed : run.elapsed ≤ later.elapsed
  speed : run.speed ≤ later.speed

variable {run later : Run Rat}

theorem Onward.refl (run : Run Rat) : Onward run run := ⟨le_refl _, le_refl _⟩

theorem Onward.trans {last : Run Rat} (h : Onward run later) (h' : Onward later last) :
    Onward run last :=
  ⟨h.elapsed.trans h'.elapsed, h.speed.trans h'.speed⟩

variable [Trig Rat]

/-- No frame takes time or speed back. -/
theorem advance_onward (run : Run Rat) (tempo : Rat) {dt : Rat} (hdt : 0 ≤ dt)
    (sides : List Direction) : Onward run (run.advance tempo dt sides).run := by
  constructor
  · have hpassed := mul_nonneg hdt (pace_nonneg run.death)
    rw [advance_elapsed]
    linarith
  · rw [advance_speed, Rules.speedRamp_exact]
    split
    · exact le_refl _
    · linarith

/-- A request whose frame, if it is one, does not last a negative time. -/
def Request.Timely : Request Rat → Prop
  | .frame dt _ => 0 ≤ dt
  | _ => True

/-- Whatever does not start over leads onward. -/
theorem answer_onward (chart : Chart Rat) (run : Run Rat) {request : Request Rat}
    (htimely : request.Timely) (hrestarts : request.restarts = false) :
    Onward run (run.answer chart request).1 := by
  cases request with
  | frame dt presses =>
      show Onward run (run.frame chart dt presses).run
      rw [frame_of_not_restart run chart dt hrestarts]
      exact advance_onward run chart.tempo htimely presses.sides
  | restart => exact nomatch hrestarts
  | start => exact .refl run
  | stop => exact .refl run

/-- So no requests do, unless one of them restarts. -/
theorem after_onward (chart : Chart Rat) (run : Run Rat) {requests : List (Request Rat)}
    (h : ∀ request ∈ requests, request.Timely ∧ request.restarts = false) :
    Onward run (run.after chart requests) := by
  induction requests generalizing run with
  | nil => exact .refl run
  | cons request rest ih =>
      obtain ⟨⟨htimely, hrestarts⟩, hrest⟩ := List.forall_mem_cons.mp h
      exact (answer_onward chart run htimely hrestarts).trans (ih _ hrest)

/-- Every request keeps the speed from falling below the first one. -/
theorem initialSpeed_le_answer (chart : Chart Rat) {run : Run Rat}
    (hspeed : Rules.initialSpeed ≤ run.speed) {request : Request Rat} (htimely : request.Timely) :
    Rules.initialSpeed ≤ (run.answer chart request).1.speed := by
  cases hr : request.restarts with
  | true =>
      obtain ⟨earlier, hanswer⟩ := answer_of_restarts chart run hr
      rw [hanswer]
      exact le_refl _
  | false => exact hspeed.trans (answer_onward chart run htimely hr).speed

/-- Restarts included, a run is never slower than at its start. -/
theorem initialSpeed_le_speed (chart : Chart Rat) {run : Run Rat}
    (hspeed : Rules.initialSpeed ≤ run.speed) {requests : List (Request Rat)}
    (h : ∀ request ∈ requests, request.Timely) :
    Rules.initialSpeed ≤ (run.after chart requests).speed := by
  induction requests generalizing run with
  | nil => exact hspeed
  | cons request rest ih =>
      obtain ⟨htimely, hrest⟩ := List.forall_mem_cons.mp h
      exact ih (initialSpeed_le_answer chart hspeed htimely) hrest

end Run

end BeatShield
