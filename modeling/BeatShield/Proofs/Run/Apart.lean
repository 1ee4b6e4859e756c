import BeatShield.Number.Binary
import BeatShield.Proofs.Run.Death
import Mathlib.Algebra.BigOperators.Ring.Finset
import Mathlib.Data.List.Induction

/-! # Apart — projectiles do not interact

    A run of a chart is compared with the runs of its single projectiles,
    each through a chart of its own, all with the same frames.

      * The time, the speed and the shield of a live run do not depend on
        the projectiles, so all these runs stay in step (`InStep`) and
        judge every projectile alike (`InStep.outcome_eq`).
      * `Apart` says that a run is its parts: its live projectiles are
        those of the single runs in a row, its score is their sum, and it
        is dying if one of them is.  A frame of a live run keeps this
        (`Apart.step`), the fatal one included.
      * `projectiles_do_not_interact` follows by induction on the frames,
        and with it that the order of the projectiles plays no part. -/

namespace BeatShield

/-- The chart with one projectile alone. -/
def Chart.only {α : Type} (chart : Chart α) (event : Event α) : Chart α :=
  { chart with events := [event] }

namespace Run

variable {α : Type} [Scalar α]

/-! ## Runs in step -/

/-- Two runs that agree on the time, the speed and the shield. -/
structure InStep (run other : Run α) : Prop where
  elapsed : run.elapsed = other.elapsed
  speed : run.speed = other.speed
  shield : run.shield = other.shield

variable {run other : Run α}

/-- Runs in step judge every projectile alike. -/
theorem InStep.outcome_eq (h : InStep run other) (tempo : α) :
    run.outcome tempo = other.outcome tempo := by
  funext event
  unfold outcome distance
  rw [h.elapsed, h.speed, h.shield]

/-- Runs in step block the same projectiles. -/
theorem InStep.blocks_eq (h : InStep run other) (tempo : α) :
    run.blocks tempo = other.blocks tempo := by
  funext event
  unfold blocks
  rw [h.outcome_eq tempo]

/-- Live runs in step are still in step when they judge. -/
theorem InStep.judging (h : InStep run other) (hrun : run.isDying = false)
    (hother : other.isDying = false) (dt : α) (sides : List Direction) :
    InStep (run.judging dt sides) (other.judging dt sides) := by
  have hdeath : run.death = other.death := by
    simp only [isDying, Option.isSome_eq_false_iff, Option.isNone_iff_eq_none] at hrun hother
    rw [hrun, hother]
  constructor
  · show run.elapsed + dt * pace run.death = other.elapsed + dt * pace other.death
    rw [h.elapsed, hdeath]
  · exact h.speed
  · simp only [Run.judging, turnShield, h.shield]

variable [Trig α]

/-- Settling changes neither the time nor the speed nor the shield. -/
theorem settle_inStep (tempo : α) (run : Run α) (events : List (Event α))
    (halive : run.isDying = false) : InStep (settle tempo run events).run run := by
  rcases calm_or_first_hit tempo run events with hcalm | ⟨before, event, after, rfl, hno, hhit⟩
  · rw [settle_calm tempo run events (.inr hcalm)]
    exact ⟨rfl, rfl, rfl⟩
  · rw [settle_first_hit tempo run before event after halive hno hhit]
    exact ⟨rfl, rfl, rfl⟩

/-- A frame keeps live runs in step, whichever charts they go through. -/
theorem InStep.step (h : InStep run other) (hrun : run.isDying = false)
    (hother : other.isDying = false) (chart chart' : Chart α) (s : Step α) :
    InStep (run.step chart s).run (other.step chart' s).run := by
  have hjudging := h.judging hrun hother s.dt s.sides
  have hsettled := settle_inStep chart.tempo (run.judging s.dt s.sides) run.live hrun
  have hsettled' := settle_inStep chart'.tempo (other.judging s.dt s.sides) other.live hother
  rw [step_eq_advance, step_eq_advance, advance_of_alive hrun, advance_of_alive hother]
  constructor
  · exact (hsettled.elapsed.trans hjudging.elapsed).trans hsettled'.elapsed.symm
  · show (settle _ _ _).run.speed + _ = (settle _ _ _).run.speed + _
    rw [hsettled.speed, hjudging.speed, ← hsettled'.speed]
  · exact (hsettled.shield.trans hjudging.shield).trans hsettled'.shield.symm

/-- A run that is live has been live before its last frame. -/
theorem alive_dropLast (chart : Chart α) {list : List (Step α)}
    (halive : ((Run.ofChart chart).steps chart list).isDying = false) :
    ((Run.ofChart chart).steps chart list.dropLast).isDying = false := by
  by_cases hnil : list = []
  · rw [hnil]
    rfl
  · rw [← List.dropLast_append_getLast hnil] at halive
    exact alive_of_steps_alive chart _ _ _ halive

/-- Up to the fatal frame of either, and with it, runs through any two
    charts are in step. -/
theorem steps_inStep (chart chart' : Chart α) (list : List (Step α))
    (halive : ((Run.ofChart chart).steps chart list.dropLast).isDying = false)
    (halive' : ((Run.ofChart chart').steps chart' list.dropLast).isDying = false) :
    InStep ((Run.ofChart chart).steps chart list) ((Run.ofChart chart').steps chart' list) := by
  induction list using List.reverseRecOn with
  | nil => exact ⟨rfl, rfl, rfl⟩
  | append_singleton before s ih =>
      rw [List.dropLast_concat] at halive halive'
      rw [steps_concat, steps_concat]
      have hbefore := ih (alive_dropLast chart halive) (alive_dropLast chart' halive')
      exact hbefore.step halive halive' chart chart' s

/-! ## One frame -/

/-- The projectiles that a frame leaves live are those that the shield does
    not block. -/
theorem step_live (chart : Chart α) (halive : run.isDying = false) (s : Step α) :
    (run.step chart s).run.live
      = run.live.filter fun event => !(run.judging s.dt s.sides).blocks chart.tempo event := by
  rw [step_eq_advance, advance_of_alive halive]
  exact settle_live chart.tempo (run.judging s.dt s.sides) run.live halive

/-- A frame of a live run scores its blocks. -/
theorem step_score (chart : Chart α) (halive : run.isDying = false) (s : Step α) :
    (run.step chart s).run.score
      = run.score + (run.live.countP ((run.judging s.dt s.sides).blocks chart.tempo) : Int) := by
  rw [step_eq_advance, advance_of_alive halive]
  exact settle_score chart.tempo (run.judging s.dt s.sides) run.live halive

/-! ## Whole runs -/

/-- A run that is made up of the runs of its projectiles. -/
structure Apart (chart : Chart α) (whole : Run α) (alone : Event α → Run α) : Prop where
  inStep : ∀ event ∈ chart.events, InStep whole (alone event)
  own : ∀ event ∈ chart.events, (alone event).live = [event] ∨ (alone event).live = []
  live : whole.live = chart.events.flatMap fun event => (alone event).live
  score : whole.score = (chart.events.map fun event => (alone event).score).sum
  dying : whole.isDying = true ↔ ∃ event ∈ chart.events, (alone event).isDying = true

omit [Trig α] in
/-- At the start every projectile is live in its own run. -/
theorem Apart.ofChart (chart : Chart α) :
    Apart chart (Run.ofChart chart) fun event => Run.ofChart (chart.only event) where
  inStep := fun _ _ => ⟨rfl, rfl, rfl⟩
  own := fun _ _ => .inl rfl
  live := (List.flatMap_singleton' chart.events).symm
  score := by
    have hzero : (chart.events.map fun event => (Run.ofChart (chart.only event)).score)
        = chart.events.map fun _ => 0 := rfl
    rw [hzero, List.sum_map_zero]
    rfl
  dying := by
    constructor
    · intro h; exact nomatch h
    · rintro ⟨_, -, h⟩; exact nomatch h

variable {chart : Chart α} {whole : Run α} {alone : Event α → Run α}

omit [Scalar α] [Trig α] in
/-- The runs of single projectiles are live as long as the whole is. -/
theorem Apart.alone_alive (h : Apart chart whole alone) (halive : whole.isDying = false)
    {event : Event α} (hmem : event ∈ chart.events) : (alone event).isDying = false := by
  by_contra hdying
  have hwhole := h.dying.mpr ⟨event, hmem, eq_true_of_ne_false hdying⟩
  rw [halive] at hwhole
  exact nomatch hwhole

omit [Trig α] in
/-- In a frame of a live run all runs are in step when they judge. -/
theorem Apart.judging (h : Apart chart whole alone) (halive : whole.isDying = false)
    {event : Event α} (hmem : event ∈ chart.events) (s : Step α) :
    InStep (whole.judging s.dt s.sides) ((alone event).judging s.dt s.sides) :=
  (h.inStep event hmem).judging halive (h.alone_alive halive hmem) s.dt s.sides

/-- A frame of a live run is a frame of each of its parts. -/
theorem Apart.step (h : Apart chart whole alone) (halive : whole.isDying = false) (s : Step α) :
    Apart chart (whole.step chart s).run
      fun event => ((alone event).step (chart.only event) s).run := by
  let judge := whole.judging s.dt s.sides
  have hblocks : ∀ event ∈ chart.events,
      ((alone event).judging s.dt s.sides).blocks chart.tempo = judge.blocks chart.tempo := by
    intro event hmem
    exact ((h.judging halive hmem s).blocks_eq chart.tempo).symm
  have hlive : ∀ event ∈ chart.events, ((alone event).step (chart.only event) s).run.live
      = (alone event).live.filter fun e => !judge.blocks chart.tempo e := by
    intro event hmem
    rw [step_live (chart.only event) (h.alone_alive halive hmem), ← hblocks event hmem]
    rfl
  have hscore : ∀ event ∈ chart.events, ((alone event).step (chart.only event) s).run.score
      = (alone event).score + ((alone event).live.countP (judge.blocks chart.tempo) : Int) := by
    intro event hmem
    rw [step_score (chart.only event) (h.alone_alive halive hmem), ← hblocks event hmem]
    rfl
  constructor
  · intro event hmem
    exact (h.inStep event hmem).step halive (h.alone_alive halive hmem) chart _ s
  · intro event hmem
    rw [hlive event hmem]
    -- a single run has its projectile as long as it is not blocked
    rcases h.own event hmem with hown | hown
    · rw [hown]
      cases hb : judge.blocks chart.tempo event with
      | true => exact .inr (List.filter_cons_of_neg (by simp [hb]))
      | false => exact .inl (List.filter_cons_of_pos (by simp [hb]))
    · rw [hown]
      exact .inr rfl
  · rw [step_live chart halive, h.live, List.filter_flatMap]
    exact List.flatMap_congr fun event hmem => (hlive event hmem).symm
  · -- every block is a block of one part, so the blocks add up as the scores do
    rw [step_score chart halive, h.live, List.countP_flatMap, List.map_congr_left hscore,
      List.sum_map_add, ← h.score, Nat.cast_list_sum, List.map_map]
    rfl
  · rw [step_isDying_iff chart halive, h.live]
    constructor
    · rintro ⟨e, he, hhit⟩
      obtain ⟨event, hmem, hlive'⟩ := List.mem_flatMap.mp he
      refine ⟨event, hmem, (step_isDying_iff _ (h.alone_alive halive hmem) s).mpr ⟨e, hlive', ?_⟩⟩
      show ((alone event).judging s.dt s.sides).outcome chart.tempo e = .hit
      rw [← (h.judging halive hmem s).outcome_eq chart.tempo]
      exact hhit
    · rintro ⟨event, hmem, hdying⟩
      obtain ⟨e, he, hhit⟩ := (step_isDying_iff _ (h.alone_alive halive hmem) s).mp hdying
      refine ⟨e, List.mem_flatMap.mpr ⟨event, hmem, he⟩, ?_⟩
      rw [(h.judging halive hmem s).outcome_eq chart.tempo]
      exact hhit

/-- The run of a single projectile. -/
def soloSteps (chart : Chart α) (list : List (Step α)) (event : Event α) : Run α :=
  (Run.ofChart (chart.only event)).steps (chart.only event) list

/-- Up to the fatal frame, and with it, a run is made up of the runs of its
    projectiles. -/
theorem apart_steps (chart : Chart α) (list : List (Step α))
    (halive : ((Run.ofChart chart).steps chart list.dropLast).isDying = false) :
    Apart chart ((Run.ofChart chart).steps chart list) (soloSteps chart list) := by
  induction list using List.reverseRecOn with
  | nil => exact .ofChart chart
  | append_singleton before s ih =>
      rw [List.dropLast_concat] at halive
      have hsolo : soloSteps chart (before ++ [s])
          = fun event => ((soloSteps chart before event).step (chart.only event) s).run := by
        funext event
        exact steps_concat (chart.only event) _ before s
      rw [hsolo, steps_concat]
      exact (ih (alive_dropLast chart halive)).step halive s

/-- A run is live as long as the runs of all its projectiles are. -/
theorem steps_alive_iff (chart : Chart α) (list : List (Step α)) :
    ((Run.ofChart chart).steps chart list).isDying = false ↔
      ∀ event ∈ chart.events, (soloSteps chart list event).isDying = false := by
  induction list using List.reverseRecOn with
  | nil =>
      constructor
      · intro _ _ _; rfl
      · intro _; rfl
  | append_singleton before s ih =>
      -- as long as the whole run was alive before, its parts go with it
      -- through the last frame
      have hfatal : ((Run.ofChart chart).steps chart before).isDying = false →
          (((Run.ofChart chart).steps chart (before ++ [s])).isDying = false ↔
            ∀ event ∈ chart.events, (soloSteps chart (before ++ [s]) event).isDying = false) := by
        intro halive
        have hapart := apart_steps chart (before ++ [s]) (by rwa [List.dropLast_concat])
        have hdying := not_congr hapart.dying
        simpa using hdying
      constructor
      · intro halive
        exact (hfatal (alive_of_steps_alive chart _ before [s] halive)).mp halive
      · intro hall
        have hbefore : ∀ event ∈ chart.events, (soloSteps chart before event).isDying = false :=
          fun event hmem => alive_of_steps_alive _ _ before [s] (hall event hmem)
        exact (hfatal (ih.mpr hbefore)).mpr hall

/-- Along any frames without a restart, up to the fatal one and with it, a
    run is put together from the runs of its single projectiles: each
    projectile is live if it is in its own run, the scores add up, the run
    is dying if one of them is, and the time, the speed and the shield are
    those of all of them.  So the order of the projectiles changes nothing
    but the order of those that are live. -/
theorem projectiles_do_not_interact (chart : Chart α) (list : List (Step α))
    (halive : ((Run.ofChart chart).steps chart list.dropLast).isDying = false) :
    let whole := (Run.ofChart chart).steps chart list
    let alone := fun event => (Run.ofChart (chart.only event)).steps (chart.only event) list
    whole.live = chart.events.flatMap (fun event => (alone event).live) ∧
      whole.score = (chart.events.map fun event => (alone event).score).sum ∧
      (whole.isDying = true ↔ ∃ event ∈ chart.events, (alone event).isDying = true) ∧
      (∀ event ∈ chart.events,
        ((alone event).live = [event] ∨ (alone event).live = []) ∧
        whole.elapsed = (alone event).elapsed ∧ whole.speed = (alone event).speed ∧
        whole.shield = (alone event).shield) ∧
      ∀ events : List (Event α), events.Perm chart.events →
        let chart' : Chart α := { chart with events }
        let other := (Run.ofChart chart').steps chart' list
        ((Run.ofChart chart').steps chart' list.dropLast).isDying = false ∧
          other.live.Perm whole.live ∧ other.score = whole.score ∧
          other.isDying = whole.isDying ∧ other.elapsed = whole.elapsed ∧
          other.speed = whole.speed ∧ other.shield = whole.shield := by
  intro whole alone
  have hapart := apart_steps chart list halive
  refine ⟨hapart.live, hapart.score, hapart.dying, fun event hmem => ?_, ?_⟩
  · obtain ⟨helapsed, hspeed, hshield⟩ := hapart.inStep event hmem
    exact ⟨hapart.own event hmem, helapsed, hspeed, hshield⟩
  · intro events hperm chart' other
    -- the single runs are the same, and the whole one is live if all of them are
    have halive' : ((Run.ofChart chart').steps chart' list.dropLast).isDying = false := by
      have hall := (steps_alive_iff chart list.dropLast).mp halive
      refine (steps_alive_iff chart' list.dropLast).mpr fun event hmem => ?_
      exact hall event (hperm.mem_iff.mp hmem)
    have hapart' := apart_steps chart' list halive'
    obtain ⟨helapsed, hspeed, hshield⟩ := steps_inStep chart' chart list halive' halive
    refine ⟨halive', ?_, ?_, ?_, helapsed, hspeed, hshield⟩
    · rw [hapart.live, hapart'.live]
      exact hperm.flatMap_right _
    · rw [hapart.score, hapart'.score]
      exact (hperm.map _).sum_eq
    · rw [Bool.eq_iff_iff, hapart.dying, hapart'.dying]
      constructor
      · rintro ⟨event, hmem, hdying⟩; exact ⟨event, hperm.mem_iff.mp hmem, hdying⟩
      · rintro ⟨event, hmem, hdying⟩; exact ⟨event, hperm.mem_iff.mpr hmem, hdying⟩

/-- Of two projectiles the late one outlives the hit of the other, in the
    whole run as in its own. -/
theorem late_projectile_outlives_hit :
    let hit : Event Float := { arrival := 0.0, side := .up }
    let late : Event Float := { arrival := 100.0, side := .down }
    let chart : Chart Float := { tempo := 60.0, start := 0.0, events := [hit, late] }
    let frames : List (Step Float) := [{ dt := 1.0, sides := [.down] }]
    let whole := (Run.ofChart chart).steps chart frames
    let alone := fun event => (Run.ofChart (chart.only event)).steps (chart.only event) frames
    ((Run.ofChart chart).steps chart frames.dropLast).isDying = false ∧
      whole.isDying = true ∧ (alone late).isDying = false ∧
      whole.live = (alone hit).live ++ (alone late).live := by
  intro hit late chart frames whole alone
  have halive : ((Run.ofChart chart).steps chart frames.dropLast).isDying = false := rfl
  obtain ⟨hlive, -, hdying, -, -⟩ := projectiles_do_not_interact chart frames halive
  have hhit : (alone hit).isDying = true := by decide +kernel
  refine ⟨halive, hdying.mpr ⟨hit, List.mem_cons_self, hhit⟩, by decide +kernel, ?_⟩
  exact hlive.trans (congrArg (_ ++ ·) (List.append_nil _))

end Run

end BeatShield
