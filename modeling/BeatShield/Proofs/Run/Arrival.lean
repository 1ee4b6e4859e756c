import BeatShield.Proofs.Chart.Finite
import BeatShield.Proofs.Number.Endless
import BeatShield.Proofs.Run.Apart

/-! # Arrival — which projectiles ever arrive

    A projectile is judged by its distance, and that is computed from its
    arrival.  If all numbers of a chart are finite, time passes every
    arrival, and then the projectile is infinitely far behind the heart:
    it hits, or the shield blocks it if it has been turned there
    (`hits_in_the_end`, `blocked_in_the_end`).

    An arrival that is NaN or positive infinity is never passed.  Its
    distance is `Endless` in every frame, so its projectile stays live
    (`waits_forever`), and the level has no end but a hit of another.

    Both are settled by the frames of a run alone; which charts are finite
    is the subject of `Chart.finite_iff`. -/

namespace BeatShield

open Checked Double
open Float.Model.UnpackedFloat

/-! ## Tempos -/

/-- A positive tempo has no negative rate of beats. -/
theorem beatRate_nonneg {tempo : Float} (h : 0.0 < tempo) : 0.0 ≤ Tempo.beatRate tempo := by
  rcases unpack_of_pos h with ⟨m, e, hm, htempo⟩ | htempo
  · have hfinite : tempo.isFinite := by
      show tempo.toModel.unpack.isFinite
      rw [htempo]
      rfl
    have hvalue : 0 < value tempo := value_pos hfinite h
    have hminute : 0 < value 60.0 := value_pos rfl (by decide +kernel)
    exact (rounds_div hfinite rfl hminute.ne').ge rfl
      (value_zero.trans_le (div_nonneg hvalue.le hminute.le))
  · refine nonneg_of_above ?_
    show unpack _ (pack _ (div _ tempo.toModel.unpack _)) = _
    rw [htempo]
    rfl

/-- Below this tempo a beat has no finite length. -/
def slowestTempo : Float := 1.0e-307

theorem slowestTempo_isFinite : slowestTempo.isFinite := by decide +kernel

/-- A tempo whose beats have a finite length is not slower than that. -/
theorem slowestTempo_le {tempo : Float} (hpos : 0.0 < tempo) (htempo : tempo.isFinite)
    (hbeat : (60.0 / tempo).isFinite) : slowestTempo ≤ tempo := by
  have hvalue : 0 < value tempo := value_pos htempo hpos
  have hslowest : 0 < value slowestTempo := value_pos slowestTempo_isFinite (by decide +kernel)
  have hminute : 0 < value 60.0 := value_pos rfl (by decide +kernel)
  rw [le_iff_value slowestTempo_isFinite htempo]
  by_contra hlt
  -- otherwise a beat would be as long as at the slowest tempo, which overflows
  have hlonger : 60.0 / slowestTempo ≤ 60.0 / tempo :=
    (rounds_div rfl slowestTempo_isFinite hslowest.ne').mono (rounds_div rfl htempo hvalue.ne')
      (div_le_div_of_nonneg_left hminute.le hvalue (not_le.mp hlt).le)
  have hinfinite : Endless (60.0 / slowestTempo) :=
    endless_of_not_finite (by decide +kernel) (by decide +kernel)
  exact absurd hlonger (hinfinite.not_le hbeat)

/-- So its rate of beats is not rounded to zero. -/
theorem beatRate_pos {tempo : Float} (hpos : 0.0 < tempo) (htempo : tempo.isFinite)
    (hbeat : (60.0 / tempo).isFinite) : 0.0 < Tempo.beatRate tempo := by
  have hminute : 0 < value 60.0 := value_pos rfl (by decide +kernel)
  have hle := (le_iff_value slowestTempo_isFinite htempo).mp (slowestTempo_le hpos htempo hbeat)
  have hrate : slowestTempo / 60.0 ≤ tempo / 60.0 :=
    (rounds_div slowestTempo_isFinite rfl hminute.ne').mono (rounds_div htempo rfl hminute.ne')
      (div_le_div_of_nonneg_right hle hminute.le)
  exact Double.lt_of_lt_of_le (by decide +kernel) hrate

/-- Where a projectile has a finite arrival, the beats pass at a rate that
    is not zero. -/
theorem Chained.beatRate_pos {tempo before : Float} {lines : List Line}
    {events : List (Event Float)} (h : Chained tempo before lines events) (hpos : 0.0 < tempo)
    (htempo : tempo.isFinite) (hfinite : ∀ event ∈ events, event.arrival.isFinite)
    (hsome : events ≠ []) : 0.0 < Tempo.beatRate tempo := by
  cases h with
  | nil => exact absurd rfl hsome
  | @cons _ delay line _ _ hdelay _ =>
      obtain ⟨-, rfl⟩ := (seconds_eq_ok_iff hpos).mp hdelay
      have harrival : (before + line.offset.duration tempo).isFinite :=
        (List.forall_mem_cons.mp hfinite).1
      have hduration : (line.offset.duration tempo).isFinite := (isFinite_of_add harrival).2
      have hbars := (isFinite_of_add hduration).2
      have hbeat := (isFinite_of_mul (isFinite_of_mul hbars).1).2
      exact BeatShield.beatRate_pos hpos htempo hbeat

namespace Run

/-! ## Distances -/

variable {run : Run Float} {tempo : Float} {event : Event Float}

/-- What an endless arrival is compared with is never as far. -/
theorem outcome_of_endless (harrival : Endless event.arrival) (hspeed : 0.0 ≤ run.speed)
    (hrate : 0.0 ≤ Tempo.beatRate tempo) : run.outcome tempo event = .pending := by
  have hdistance : Endless (run.distance tempo event) :=
    (((harrival.sub run.elapsed).mul hspeed).mul hrate).add Rules.shieldRadius
  unfold outcome
  rw [if_neg (fun h => hdistance.not_lt rfl h.2), if_neg (hdistance.not_le rfl)]

/-- Once time has passed all doubles, a finite arrival is far behind. -/
theorem unpack_distance (harrival : event.arrival.isFinite)
    (helapsed : run.elapsed.toModel.unpack = .infinity .positive) (hspeed : 0.0 < run.speed)
    (hrate : 0.0 < Tempo.beatRate tempo) :
    (run.distance tempo event).toModel.unpack = .infinity .negative :=
  unpack_infinity_add (unpack_infinity_mul (unpack_infinity_mul
    (unpack_sub_above harrival helapsed) hspeed) hrate) rfl

/-- What is infinitely far behind the heart hits, unless the shield is on
    its side. -/
theorem outcome_of_unshielded (hdistance : (run.distance tempo event).toModel.unpack =
    .infinity .negative) (hshield : run.shield ≠ some event.side) :
    run.outcome tempo event = .hit := by
  have hle : run.distance tempo event ≤ Rules.hurtRadius :=
    le_of_unpack_below hdistance (unpack_ne_nan_of_finite rfl)
  exact outcome_eq_hit_iff.mpr ⟨fun h => hshield h.1, hle⟩

/-- What is near enough to hit is inside the ring of the shield. -/
theorem lt_shieldRadius_of_le (hle : run.distance tempo event ≤ Rules.hurtRadius) :
    run.distance tempo event < Rules.shieldRadius :=
  Double.lt_of_le_of_lt hle (by decide +kernel)

/-- If it is, the projectile is blocked. -/
theorem outcome_of_shielded (hdistance : (run.distance tempo event).toModel.unpack =
    .infinity .negative) (hshield : run.shield = some event.side) :
    run.outcome tempo event = .blocked := by
  have hle : run.distance tempo event ≤ Rules.hurtRadius :=
    le_of_unpack_below hdistance (unpack_ne_nan_of_finite rfl)
  exact outcome_eq_blocked_iff.mpr ⟨hshield, lt_shieldRadius_of_le hle⟩

/-- The shield stops a projectile before it reaches the heart. -/
theorem outcome_ne_hit (hshield : run.shield = some event.side) :
    run.outcome tempo event ≠ .hit := by
  intro hhit
  obtain ⟨hnot, hle⟩ := outcome_eq_hit_iff.mp hhit
  exact hnot ⟨hshield, lt_shieldRadius_of_le hle⟩

/-- Without the shield on its side no projectile is blocked. -/
theorem outcome_ne_blocked (hshield : run.shield ≠ some event.side) :
    run.outcome tempo event ≠ .blocked := by
  intro hblocked
  exact hshield (outcome_eq_blocked_iff.mp hblocked).1

/-! ## Waiting -/

/-- A projectile that a run still waits for. -/
structure Waiting (event : Event Float) (run : Run Float) : Prop where
  live : event ∈ run.live
  speed : 0.0 ≤ run.speed

/-- One frame does not bring an endless arrival nearer. -/
theorem Waiting.step (h : Waiting event run) (chart : Chart Float)
    (harrival : Endless event.arrival) (hpos : 0.0 < chart.tempo) (s : Step Float)
    (hdt : 0.0 ≤ s.dt) : Waiting event (run.step chart s).run := by
  cases hd : run.isDying with
  | true =>
      obtain ⟨time, htime⟩ := Option.isSome_iff_exists.mp hd
      rw [(step_of_dying chart htime s).2]
      exact ⟨h.live, h.speed⟩
  | false =>
      have hpending : (run.judging s.dt s.sides).outcome chart.tempo event = .pending :=
        outcome_of_endless harrival h.speed (beatRate_nonneg hpos)
      constructor
      · rw [step_live chart hd]
        refine List.mem_filter.mpr ⟨h.live, ?_⟩
        rw [blocks, hpending]
        rfl
      · rw [step_eq_advance, advance_of_alive hd]
        have hsettled := settle_inStep chart.tempo (run.judging s.dt s.sides) run.live hd
        show 0.0 ≤ (settle chart.tempo (run.judging s.dt s.sides) run.live).run.speed
          + s.dt * Rules.speedRamp
        rw [hsettled.speed]
        exact nonneg_add h.speed (nonneg_mul hdt rfl (by decide +kernel))

/-- So it waits through any number of frames. -/
theorem Waiting.steps (h : Waiting event run) (chart : Chart Float)
    (harrival : Endless event.arrival) (hpos : 0.0 < chart.tempo) (list : List (Step Float))
    (hdt : ∀ s ∈ list, 0.0 ≤ s.dt) : Waiting event (run.steps chart list) := by
  induction list generalizing run with
  | nil => exact h
  | cons s later ih =>
      obtain ⟨hs, hlater⟩ := List.forall_mem_cons.mp hdt
      exact ih (h.step chart harrival hpos s hs) hlater

/-- A projectile whose arrival is endless stays live, whatever happens. -/
theorem waits_forever {chart : Chart Float} (hpos : 0.0 < chart.tempo) (hmem : event ∈ chart.events)
    (harrival : Endless event.arrival) (list : List (Step Float)) (hdt : ∀ s ∈ list, 0.0 ≤ s.dt) :
    event ∈ ((Run.ofChart chart).steps chart list).live := by
  have hfresh : Waiting event (Run.ofChart chart) :=
    ⟨hmem, show 0.0 ≤ (Rules.initialSpeed : Float) by decide +kernel⟩
  exact (hfresh.steps chart harrival hpos list hdt).live

/-! ## Passing all doubles -/

/-- The longest frame: as many seconds as the largest double. -/
def aeon : Float := nearestDouble (twoTo 1024 - twoTo 970 - 1)

/-- One of the longest frames, with some sides pressed. -/
def ageing (held : List Direction) : Step Float := { dt := aeon, sides := held }

theorem aeon_finite : aeon.isFinite ∧ 0.0 ≤ aeon := by decide +kernel

/-- A live frame moves the time and the speed, and turns the shield. -/
theorem step_inStep (chart : Chart Float) (halive : run.isDying = false) (s : Step Float) :
    InStep (run.step chart s).run ((run.judging s.dt s.sides).ease s.dt) := by
  rw [step_eq_advance, advance_of_alive halive]
  have hsettled := settle_inStep chart.tempo (run.judging s.dt s.sides) run.live halive
  constructor
  · exact hsettled.elapsed
  · show (settle _ _ _).run.speed + _ = _
    rw [hsettled.speed]
    rfl
  · exact hsettled.shield

/-- In the second of the longest frames every finite arrival is judged to
    be far behind. -/
theorem unpack_distance_of_aged {chart : Chart Float} {held : List Direction}
    (halive : ((Run.ofChart chart).step chart (ageing held)).run.isDying = false)
    (harrival : event.arrival.isFinite) (hrate : 0.0 < Tempo.beatRate chart.tempo) :
    ((((Run.ofChart chart).step chart (ageing held)).run.judging aeon held).distance chart.tempo
      event).toModel.unpack = .infinity .negative := by
  have hfresh : (Run.ofChart chart).isDying = false := rfl
  obtain ⟨helapsed, hspeed, -⟩ := step_inStep chart hfresh (ageing held)
  have hdeath : ((Run.ofChart chart).step chart (ageing held)).run.death = none :=
    isDying_eq_false_iff.mp halive
  -- after two aeons the time has passed all doubles, and the speed is still
  -- positive
  have hpassed : 0.0 + aeon * pace none + aeon * pace none =
      (((Run.ofChart chart).step chart (ageing held)).run.judging aeon held).elapsed := by
    show _ = ((Run.ofChart chart).step chart (ageing held)).run.elapsed + aeon * pace _
    rw [helapsed, hdeath]
    rfl
  have hramped : Rules.initialSpeed + aeon * Rules.speedRamp =
      (((Run.ofChart chart).step chart (ageing held)).run.judging aeon held).speed :=
    hspeed.symm
  refine unpack_distance harrival ?_ ?_ hrate
  · rw [← hpassed]
    exact unpack_above (by decide +kernel) (by decide +kernel)
  · rw [← hramped]
    decide +kernel

/-! ## The end of a projectile -/

/-- One pressed side turns the shield there. -/
theorem turnShield_one (run : Run Float) (side : Direction) :
    (run.turnShield [side]).shield = some side := by
  cases side <;> rfl

variable {chart : Chart Float}

/-- A projectile with a finite arrival hits in the end, if nothing is
    pressed. -/
theorem hits_in_the_end (hrate : 0.0 < Tempo.beatRate chart.tempo)
    (harrival : event.arrival.isFinite) :
    (soloSteps chart [ageing [], ageing []] event).isDying = true := by
  let alone := chart.only event
  let first := ((Run.ofChart alone).step alone (ageing [])).run
  have hfresh : (Run.ofChart alone).isDying = false := rfl
  show (first.step alone (ageing [])).run.isDying = true
  cases hd : first.isDying with
  | true =>
      obtain ⟨time, htime⟩ := Option.isSome_iff_exists.mp hd
      rw [(step_of_dying alone htime _).2]
      rfl
  | false =>
      -- without a shield nothing is blocked, so the projectile is still live
      have hnone : ((Run.ofChart alone).judging aeon []).shield ≠ some event.side := nofun
      have hshield : (first.judging aeon []).shield ≠ some event.side := by
        rw [show (first.judging aeon []).shield = first.shield from rfl,
          (step_inStep alone hfresh (ageing [])).shield]
        exact hnone
      have hlive : event ∈ first.live := by
        rw [step_live alone hfresh]
        have hb : ((Run.ofChart alone).judging aeon []).blocks alone.tempo event = false := by
          simpa [blocks] using outcome_ne_blocked hnone
        exact List.mem_filter.mpr ⟨List.mem_singleton_self event, congrArg not hb⟩
      exact (step_isDying_iff alone hd _).mpr ⟨event, hlive,
        outcome_of_unshielded (unpack_distance_of_aged hd harrival hrate) hshield⟩

/-- A shield that is turned to the only projectile keeps the run alive. -/
theorem alive_of_shielded (hlive : ∀ e ∈ run.live, e = event) (halive : run.isDying = false) :
    (run.step chart (ageing [event.side])).run.isDying = false := by
  by_contra hdying
  obtain ⟨e, he, hhit⟩ := (step_isDying_iff chart halive _).mp (eq_true_of_ne_false hdying)
  obtain rfl := hlive e he
  exact outcome_ne_hit (turnShield_one _ e.side) hhit

/-- A projectile with a finite arrival is blocked in the end, if the shield
    is turned to it. -/
theorem blocked_in_the_end (hrate : 0.0 < Tempo.beatRate chart.tempo)
    (harrival : event.arrival.isFinite) :
    let run := soloSteps chart [ageing [event.side], ageing [event.side]] event
    run.isDying = false ∧ run.live = [] ∧ run.score = 1 := by
  let alone := chart.only event
  let fresh := Run.ofChart alone
  let first := (fresh.step alone (ageing [event.side])).run
  show (first.step alone _).run.isDying = false ∧ (first.step alone _).run.live = [] ∧
    (first.step alone _).run.score = 1
  have halive : first.isDying = false :=
    alive_of_shielded (fun e he => List.mem_singleton.mp he) rfl
  have hlive : first.live = [event].filter fun e =>
      !(fresh.judging aeon [event.side]).blocks alone.tempo e := step_live alone rfl _
  have hscore : first.score =
      0 + ([event].countP ((fresh.judging aeon [event.side]).blocks alone.tempo) : Int) :=
    step_score alone rfl _
  have hlast : (first.judging aeon [event.side]).blocks alone.tempo event = true :=
    blocks_iff.mpr (outcome_of_shielded (unpack_distance_of_aged halive harrival hrate)
      (turnShield_one _ event.side))
  rw [step_live alone halive, step_score alone halive]
  refine ⟨alive_of_shielded (fun e he => ?_) halive, ?_⟩
  · rw [hlive] at he
    exact List.mem_singleton.mp (List.mem_of_mem_filter he)
  -- it is blocked in the first frame or in the second
  show first.live.filter (fun e => !(first.judging aeon [event.side]).blocks alone.tempo e) = [] ∧
    first.score + (first.live.countP ((first.judging aeon [event.side]).blocks alone.tempo) : Int)
      = 1
  cases hb : (fresh.judging aeon [event.side]).blocks alone.tempo event with
  | true =>
      rw [hlive, hscore]
      simp [hb]
  | false =>
      rw [hlive, hscore]
      simp [hb, hlast]

end Run

/-! ## Accepted charts -/

/-- All numbers of an accepted chart are finite exactly if its tempo and
    its last arrival are; and they are, if the header and the offsets are
    of a sensible size.  Then some frames end with the hit of a given
    projectile, taken alone, and others with its block.

    A projectile whose arrival is neither finite nor before the start stays
    live in all frames, and so the level goes on for ever. -/
theorem finite_projectiles_are_decided {source : List Char} {chart : Chart Float}
    (h : Chart.ofText source = .ok chart) :
    (chart.Finite ↔ chart.tempo.isFinite ∧ chart.endTime.isFinite) ∧
    (chart.tempo.isFinite → 1.0 ≤ chart.tempo → Within (-reach) reach chart.start →
      Moderate source → chart.Finite) ∧
    (chart.Finite → ∀ event ∈ chart.events,
      (∃ frames : List (Run.Step Float), (∀ s ∈ frames, s.dt.isFinite ∧ 0.0 ≤ s.dt) ∧
        (Run.soloSteps chart frames event).isDying = true) ∧
      (∃ frames : List (Run.Step Float), (∀ s ∈ frames, s.dt.isFinite ∧ 0.0 ≤ s.dt) ∧
        let run := Run.soloSteps chart frames event
        run.isDying = false ∧ run.live = [] ∧ run.score = 1)) ∧
    (∀ event ∈ chart.events, ¬ event.arrival.isFinite → ¬ event.arrival < 0.0 →
      ∀ frames : List (Run.Step Float), (∀ s ∈ frames, 0.0 ≤ s.dt) →
        event ∈ ((Run.ofChart chart).steps chart frames).live) := by
  obtain ⟨tokens, -, hchart⟩ := bind_eq_ok.mp h
  obtain ⟨t, u, lines, -, -, hpos, -, hchain⟩ := Chart.ofTokens_eq_ok_iff_chained.mp hchart
  refine ⟨Chart.finite_iff hchart, Chart.finite_of_moderate h, ?_, ?_⟩
  · intro hfinite event hmem
    -- a chart with a projectile has computed a beat, so its rate is not zero
    have hrate := hchain.beatRate_pos hpos hfinite.tempo hfinite.arrivals (List.ne_nil_of_mem hmem)
    have harrival := hfinite.arrivals event hmem
    have hframes : ∀ held, ∀ s ∈ [Run.ageing held, Run.ageing held],
        s.dt.isFinite ∧ 0.0 ≤ s.dt := by
      intro held s hs
      obtain rfl : s = Run.ageing held := by simpa using hs
      exact Run.aeon_finite
    exact ⟨⟨_, hframes _, Run.hits_in_the_end hrate harrival⟩,
      ⟨_, hframes _, Run.blocked_in_the_end hrate harrival⟩⟩
  · intro event hmem hfinite hbelow frames hdt
    exact Run.waits_forever hpos hmem (endless_of_not_finite hfinite hbelow) frames hdt

/-- Two projectiles that are decided, since their offsets are short. -/
theorem plain_chart_is_decided :
    let source := "#bpm 120 #offset 0.5 norm U 2 norm L 1;0|1".toList
    let late : Event Float := { arrival := 3.625, side := .left }
    let chart : Chart Float :=
      { tempo := 120.0, start := 0.5, events := [{ arrival := 1.5, side := .up }, late] }
    Chart.ofText source = .ok chart ∧ Moderate source ∧ chart.Finite ∧
      ∃ frames, (Run.soloSteps chart frames late).isDying = true := by
  intro source late chart
  have hread : Chart.ofText source = .ok chart := eq_ok_of_toOption (by decide +kernel)
  have htokens : Token.ofText source = .ok [.tempoMarker, .timeOffset ⟨none, 120, none⟩,
      .offsetMarker, .number 0.5,
      .eventType .normal, .direction .up, .timeOffset ⟨none, 2, none⟩,
      .eventType .normal, .direction .left, .timeOffset ⟨some 1, 0, some 1⟩] :=
    eq_ok_of_toOption (by decide +kernel)
  have hmoderate : Moderate source := by
    intro tokens h o ho
    obtain rfl := Except.ok.inj (htokens.symm.trans h)
    simp only [List.mem_cons, Token.timeOffset.injEq, List.not_mem_nil, reduceCtorEq, false_or,
      or_false] at ho
    rcases ho with rfl | rfl | rfl <;>
      exact ⟨by decide +kernel, by decide +kernel, by decide +kernel⟩
  obtain ⟨-, hsensible, hdecided, -⟩ := finite_projectiles_are_decided hread
  have hfinite : chart.Finite :=
    hsensible (by decide +kernel) (by decide +kernel) (by decide +kernel) hmoderate
  obtain ⟨⟨frames, -, hdying⟩, -⟩ := hdecided hfinite late (by decide +kernel)
  exact ⟨hread, hmoderate, hfinite, frames, hdying⟩

/-- An offset that is no number is accepted, and the level has no end. -/
theorem nan_offset_is_accepted :
    ∃ chart event, Chart.ofText "#bpm 120 #offset nan norm U 1".toList = .ok chart ∧
      ¬ chart.start.isFinite ∧ chart.events = [event] ∧ ¬ event.arrival.isFinite ∧
      ∀ frames : List (Run.Step Float), (∀ s ∈ frames, 0.0 ≤ s.dt) →
        event ∈ ((Run.ofChart chart).steps chart frames).live := by
  let event : Event Float := { arrival := 0.0 / 0.0, side := .up }
  let chart : Chart Float := { tempo := 120.0, start := 0.0 / 0.0, events := [event] }
  have hread : Chart.ofText "#bpm 120 #offset nan norm U 1".toList = .ok chart :=
    eq_ok_of_toOption (by decide +kernel)
  have harrival : ¬ event.arrival.isFinite := by decide +kernel
  refine ⟨chart, event, hread, by decide +kernel, rfl, harrival, fun frames hdt => ?_⟩
  exact Run.waits_forever (by decide +kernel) List.mem_cons_self
    (endless_of_not_finite harrival (by decide +kernel)) frames hdt

end BeatShield
