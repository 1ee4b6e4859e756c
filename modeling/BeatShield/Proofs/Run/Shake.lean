import BeatShield.Proofs.Run.Exact
import BeatShield.Scene.Basic
import Mathlib.Algebra.Order.Ring.Abs
import Mathlib.Tactic.Positivity
import Mathlib.Tactic.Ring

/-! # Shake — how far blocks shake the picture

    Each block shakes the camera by a hundredth, and a frame leaves nine
    tenths of the shake that it ends with.  So a block counts for at most
    nine thousandths once its frame is over, and frames with no more than
    `m` blocks each can keep the shake at nine hundredths times `m`, where a
    frame adds as much as it takes away.

      * `settle_shake_bounds` — what the projectiles of one frame do: a hit
        among them takes the shake away, and only the blocks behind it
        count.
      * `answer_shake_bounds` — hence what a request does.  Both bounds are
        kept by it (`Shaken.answer`, `shake_le_of_blocks`), and by all
        requests by induction.
      * `Camera.displacement_bounds` — a picture is displaced by at most the
        shake. -/

namespace BeatShield

theorem Rules.shakeImpulse_exact : (Rules.shakeImpulse : Rat) = 1 / 100 := by
  norm_num [Rules.shakeImpulse]

theorem Rules.shakeDecay_exact : (Rules.shakeDecay : Rat) = 9 / 10 := by
  norm_num [Rules.shakeDecay]

/-! ## The camera -/

namespace Camera

/-- Half the size of a screen, in exact arithmetic. -/
def halfSize (screen : Screen) : Vec Rat := { x := screen.width / 2, y := screen.height / 2 }

/-- A number drawn from both sides of zero is no farther from it than the
    ends. -/
theorem abs_pick_le {shake unit : Rat} (hshake : 0 ≤ shake) (hunit : 0 ≤ unit ∧ unit ≤ 1) :
    |Range.pick { low := -shake, high := shake } unit| ≤ shake := by
  have hlow : 0 ≤ shake * unit := mul_nonneg hshake hunit.1
  have hhigh : shake * unit ≤ shake := mul_le_of_le_one_right hshake hunit.2
  have hpick : Range.pick { low := -shake, high := shake } unit = 2 * (shake * unit) - shake := by
    show -shake + (shake - -shake) * unit = _
    ring
  rw [hpick, abs_le]
  constructor <;> linarith

/-- A picture is displaced by at most the shake, as a part of half the
    screen. -/
theorem displacement_bounds {half : Vec Rat} (hx : 0 ≤ half.x) (hy : 0 ≤ half.y) {shake : Rat}
    (hshake : 0 ≤ shake) {draws : Draws Rat}
    (hunits : ∀ n, 0 ≤ draws.source n ∧ draws.source n ≤ 1) :
    |(displacement half shake draws).1.x| ≤ shake * half.x ∧
      |(displacement half shake draws).1.y| ≤ shake * half.y := by
  constructor
  · show |Range.pick { low := -shake, high := shake } (draws.source draws.used) * half.x| ≤ _
    rw [abs_mul, abs_of_nonneg hx]
    exact mul_le_mul_of_nonneg_right (abs_pick_le hshake (hunits _)) hx
  · show |Range.pick { low := -shake, high := shake } (draws.source (draws.used + 1)) * half.y| ≤ _
    rw [abs_mul, abs_of_nonneg hy]
    exact mul_le_mul_of_nonneg_right (abs_pick_le hshake (hunits _)) hy

end Camera

namespace Run

/-! ## Blocks -/

section

variable {α : Type} [Scalar α]

/-- The requests since the last one that starts over. -/
def Request.sinceRestart (requests : List (Request α)) : List (Request α) :=
  requests.rtakeWhile fun request => !request.restarts

/-- How many projectiles a request blocks. -/
def blockCount (chart : Chart α) (run : Run α) : Request α → Nat
  | .frame dt presses =>
      if run.isDying then 0
      else run.live.countP ((run.judging dt presses.sides).blocks chart.tempo)
  | .restart | .start | .stop => 0

variable [Trig α]

/-- How many projectiles each of several requests blocks. -/
def blockCounts (chart : Chart α) : Run α → List (Request α) → List Nat
  | _, [] => []
  | run, request :: rest =>
      run.blockCount chart request :: blockCounts chart (run.answer chart request).1 rest

/-- What was asked before the last restart has no part in the run. -/
theorem after_sinceRestart (chart : Chart α) (requests : List (Request α)) :
    (Run.ofChart chart).after chart requests
      = (Run.ofChart chart).after chart (Request.sinceRestart requests) := by
  refine foldl_since_reset (fun run request hrestarts => ?_) requests
  obtain ⟨earlier, hanswer⟩ := answer_of_restarts chart run hrestarts
  rw [hanswer]

/-- Blocks score, and nothing else does. -/
theorem answer_score (chart : Chart α) (run : Run α) {request : Request α}
    (hrestarts : request.restarts = false) :
    (run.answer chart request).1.score = run.score + run.blockCount chart request := by
  cases request with
  | frame dt presses =>
      show (run.frame chart dt presses).run.score = _
      rw [frame_of_not_restart run chart dt hrestarts, blockCount]
      cases hd : run.isDying with
      | true =>
          obtain ⟨death, hdeath⟩ := Option.isSome_iff_exists.mp hd
          rw [advance_of_dying hdeath]
          exact (Int.add_zero _).symm
      | false =>
          rw [advance_of_alive hd]
          exact settle_score chart.tempo (run.judging dt presses.sides) run.live hd
  | restart => exact nomatch hrestarts
  | start => exact (Int.add_zero _).symm
  | stop => exact (Int.add_zero _).symm

end

/-! ## One frame -/

/-- Each block adds its impulse. -/
theorem addBlocks_shake (run : Run Rat) (count : Nat) :
    (run.addBlocks count).shake = run.shake + count / 100 := by
  induction count generalizing run with
  | zero =>
      rw [addBlocks_zero]
      norm_num
  | succ count ih =>
      rw [addBlocks_succ, ih]
      show run.shake + Rules.shakeImpulse + (count : Rat) / 100 = _
      rw [Rules.shakeImpulse_exact]
      push_cast
      ring

section

variable [Trig Rat]

/-- The projectiles of a frame add at most what their blocks add. -/
theorem settle_shake_bounds (tempo : Rat) {run : Run Rat} (events : List (Event Rat))
    (halive : run.isDying = false) (hshake : 0 ≤ run.shake) :
    0 ≤ (settle tempo run events).run.shake ∧
      (settle tempo run events).run.shake
        ≤ run.shake + (events.countP (run.blocks tempo) : Rat) / 100 := by
  rcases calm_or_first_hit tempo run events with hcalm | ⟨before, event, after, rfl, hno, hhit⟩
  · rw [settle_calm tempo run events (.inr hcalm)]
    show 0 ≤ (run.addBlocks _).shake ∧ (run.addBlocks _).shake ≤ _
    rw [addBlocks_shake]
    exact ⟨add_nonneg hshake (by positivity), le_rfl⟩
  · rw [settle_first_hit tempo run before event after halive hno hhit]
    -- the hit leaves no shake, and so only the blocks behind it are left
    show 0 ≤ ((run.addBlocks _).beginDeath.addBlocks _).shake ∧
      ((run.addBlocks _).beginDeath.addBlocks _).shake ≤ _
    have hzero : ((run.addBlocks (before.countP (run.blocks tempo))).beginDeath).shake = 0 := by
      show (0.0 : Rat) = 0
      norm_num
    rw [addBlocks_shake, hzero, zero_add]
    show 0 ≤ (after.countP (run.blocks tempo) : Rat) / 100 ∧
      (after.countP (run.blocks tempo) : Rat) / 100 ≤ _
    have hlater : after.countP (run.blocks tempo)
        ≤ (before ++ event :: after).countP (run.blocks tempo) :=
      ((List.sublist_cons_self event after).trans (List.sublist_append_right before _)).countP_le
    have hcast : (after.countP (run.blocks tempo) : Rat)
        ≤ ((before ++ event :: after).countP (run.blocks tempo) : Rat) := by exact_mod_cast hlater
    constructor
    · positivity
    · linarith

/-- A request that does not start over leaves the shake as it is, or what is
    left of it after a frame with the blocks of the request. -/
theorem answer_shake_bounds (chart : Chart Rat) {run : Run Rat} (hshake : 0 ≤ run.shake)
    {request : Request Rat} (hrestarts : request.restarts = false) :
    0 ≤ (run.answer chart request).1.shake ∧
      ((run.answer chart request).1.shake = run.shake ∨
        (run.answer chart request).1.shake
          ≤ (run.shake + run.blockCount chart request / 100) * (9 / 10)) := by
  cases request with
  | frame dt presses =>
      show 0 ≤ (run.frame chart dt presses).run.shake ∧
        ((run.frame chart dt presses).run.shake = run.shake ∨
          (run.frame chart dt presses).run.shake ≤ _)
      rw [frame_of_not_restart run chart dt hrestarts, blockCount]
      cases hd : run.isDying with
      | true =>
          obtain ⟨death, hdeath⟩ := Option.isSome_iff_exists.mp hd
          rw [advance_of_dying hdeath]
          -- a dying run does not shake any less
          exact ⟨hshake, .inl rfl⟩
      | false =>
          have halive : (run.judging dt presses.sides).isDying = false := hd
          obtain ⟨hlow, hhigh⟩ := settle_shake_bounds chart.tempo run.live halive hshake
          rw [advance_of_alive hd]
          show 0 ≤ (settle _ _ _).run.shake * Rules.shakeDecay ∧
            ((settle _ _ _).run.shake * Rules.shakeDecay = run.shake ∨
              (settle _ _ _).run.shake * Rules.shakeDecay ≤ _)
          rw [Rules.shakeDecay_exact]
          exact ⟨mul_nonneg hlow (by norm_num),
            .inr (mul_le_mul_of_nonneg_right hhigh (by norm_num))⟩
  | restart => exact nomatch hrestarts
  | start => exact ⟨hshake, .inl rfl⟩
  | stop => exact ⟨hshake, .inl rfl⟩

/-! ## Whole runs -/

/-- What every request keeps: the shake is not negative, and at most nine
    thousandths for each point of the score. -/
structure Shaken (run : Run Rat) : Prop where
  score_nonneg : 0 ≤ run.score
  shake_nonneg : 0 ≤ run.shake
  shake_le_score : run.shake ≤ 9 / 1000 * run.score

omit [Trig Rat] in
theorem shake_ofChart (chart : Chart Rat) : (Run.ofChart chart).shake = 0 := by
  show (0.0 : Rat) = 0
  norm_num

omit [Trig Rat] in
/-- A fresh run is still, which is within bounds. -/
theorem shaken_ofChart (chart : Chart Rat) : Shaken (Run.ofChart chart) where
  score_nonneg := le_refl 0
  shake_nonneg := (shake_ofChart chart).ge
  shake_le_score := by
    rw [shake_ofChart]
    show (0 : Rat) ≤ 9 / 1000 * ((0 : Int) : Rat)
    norm_num

variable {run : Run Rat}

/-- Every request keeps the shake within bounds. -/
theorem Shaken.answer (h : Shaken run) (chart : Chart Rat) (request : Request Rat) :
    Shaken (run.answer chart request).1 := by
  cases hr : request.restarts with
  | true =>
      obtain ⟨earlier, hanswer⟩ := answer_of_restarts chart run hr
      rw [hanswer]
      exact shaken_ofChart chart
  | false =>
      -- a frame adds the impulses of its blocks before it decays, and the
      -- score adds the blocks
      obtain ⟨hlow, hhigh⟩ := answer_shake_bounds chart h.shake_nonneg hr
      have hscore := answer_score chart run hr
      have hcast : ((run.answer chart request).1.score : Rat)
          = run.score + run.blockCount chart request := by
        rw [hscore]
        push_cast
        rfl
      have hbefore : (0 : Rat) ≤ run.score := by exact_mod_cast h.score_nonneg
      have hblocks : (0 : Rat) ≤ run.blockCount chart request := Nat.cast_nonneg _
      have hold := h.shake_le_score
      refine ⟨?_, hlow, ?_⟩
      · rw [hscore]
        exact add_nonneg h.score_nonneg (Int.natCast_nonneg _)
      · rw [hcast]
        rcases hhigh with hsame | hfaded <;> linarith

theorem Shaken.after (h : Shaken run) (chart : Chart Rat) (requests : List (Request Rat)) :
    Shaken (run.after chart requests) := by
  induction requests generalizing run with
  | nil => exact h
  | cons request rest ih => exact ih (h.answer chart request)

/-- As long as nothing starts over and no request blocks more than `most`, a
    shake of nine hundredths times `most` is not exceeded: what `most` blocks
    add to it, the frame takes away. -/
theorem shake_le_of_blocks (chart : Chart Rat) {most : Nat} (hshake : 0 ≤ run.shake)
    (hmost : run.shake ≤ 9 / 100 * most) {requests : List (Request Rat)}
    (hrestarts : ∀ request ∈ requests, request.restarts = false)
    (hblocks : ∀ count ∈ run.blockCounts chart requests, count ≤ most) :
    (run.after chart requests).shake ≤ 9 / 100 * most := by
  induction requests generalizing run with
  | nil => exact hmost
  | cons request rest ih =>
      obtain ⟨hrestart, hrest⟩ := List.forall_mem_cons.mp hrestarts
      obtain ⟨hcount, hcounts⟩ := List.forall_mem_cons.mp hblocks
      obtain ⟨hlow, hhigh⟩ := answer_shake_bounds chart hshake hrestart
      have hcast : (run.blockCount chart request : Rat) ≤ most := by exact_mod_cast hcount
      refine ih hlow ?_ hrest hcounts
      rcases hhigh with hsame | hfaded <;> linarith

/-- In exact arithmetic, and whatever is asked of a run, the shake is not
    negative and at most nine thousandths times the score.  If no frame since
    the last restart has blocked more than `most` projectiles, it is at most
    nine hundredths times `most`.  With units drawn from 0 to 1 a picture is
    displaced by at most the shake, times half the width of the screen one
    way and half its height the other. -/
theorem shake_is_bounded_by_play (chart : Chart Rat) (requests : List (Request Rat)) :
    let run := (Run.ofChart chart).after chart requests
    0 ≤ run.shake ∧ run.shake ≤ 9 / 1000 * run.score ∧
    (∀ most : Nat,
      (∀ count ∈ (Run.ofChart chart).blockCounts chart (Request.sinceRestart requests),
        count ≤ most) → run.shake ≤ 9 / 100 * most) ∧
    ∀ (screen : Screen) (draws : Draws Rat), (∀ n, 0 ≤ draws.source n ∧ draws.source n ≤ 1) →
      let shift := (Camera.displacement (Camera.halfSize screen) run.shake draws).1
      |shift.x| ≤ run.shake * (screen.width / 2) ∧ |shift.y| ≤ run.shake * (screen.height / 2) := by
  intro run
  have hshaken : Shaken run := (shaken_ofChart chart).after chart requests
  refine ⟨hshaken.shake_nonneg, hshaken.shake_le_score, ?_, ?_⟩
  · intro most hblocks
    have hfresh := shake_ofChart chart
    -- only what was asked since the last restart counts, and that started
    -- still
    have hquiet : ∀ request ∈ Request.sinceRestart requests, request.restarts = false := by
      intro request hmem
      simpa using List.mem_rtakeWhile_imp hmem
    show ((Run.ofChart chart).after chart requests).shake ≤ _
    rw [after_sinceRestart]
    refine shake_le_of_blocks chart hfresh.ge ?_ hquiet hblocks
    rw [hfresh]
    positivity
  · intro screen draws hunits
    have hx : (0 : Rat) ≤ screen.width / 2 := by positivity
    have hy : (0 : Rat) ≤ screen.height / 2 := by positivity
    exact Camera.displacement_bounds hx hy hshaken.shake_nonneg hunits

end

/-- A run that starts over after a frame with three blocks, and then blocks
    two projectiles and one. -/
theorem shake_of_three_blocks :
    let _trig : Trig Rat := { pi := 22 / 7, cos := id, sin := id }
    let early : Event Rat := { arrival := 0, side := .up }
    let late : Event Rat := { arrival := 1, side := .up }
    let chart : Chart Rat := { tempo := 60, start := 0, events := [early, early, late] }
    let requests : List (Request Rat) :=
      [.frame 2 { sides := [.up] }, .restart, .frame (1 / 2) { sides := [.up] }, .frame 1 {}]
    let run := (Run.ofChart chart).after chart requests
    let draws : Draws Rat := { source := fun _ => 1 / 4 }
    (Run.ofChart chart).blockCounts chart requests = [3, 0, 2, 1] ∧
      run.score = 3 ∧ run.shake = 252 / 10000 ∧ run.shake ≤ 9 / 1000 * run.score ∧
      run.shake ≤ 9 / 100 * (2 : Nat) ∧
      |(Camera.displacement (Camera.halfSize {}) run.shake draws).1.x| ≤ run.shake * (800 / 2) := by
  intro _trig early late chart requests run draws
  obtain ⟨-, hscore, hmost, hshift⟩ := shake_is_bounded_by_play chart requests
  have hunits : ∀ n, 0 ≤ draws.source n ∧ draws.source n ≤ 1 := by
    intro n
    show (0 : Rat) ≤ 1 / 4 ∧ (1 / 4 : Rat) ≤ 1
    norm_num
  exact ⟨by decide +kernel, by decide +kernel, by decide +kernel, hscore,
    hmost 2 (by decide +kernel), (hshift {} draws hunits).1⟩

end Run

end BeatShield
