import BeatShield.Proofs.Run.Exact

/-! # Ring — when a projectile crosses the ring of the shield

    A projectile's distance is the ring's radius at its arrival, and
    differs from it by the time to the arrival times the speed and the
    beat rate.  Both factors are positive, so on which side of the ring a
    projectile is depends on the time of the music alone
    (`distance_lt_iff`), in exact arithmetic.

      * A live projectile is therefore blocked exactly if it has arrived
        and the shield faces it (`outcome_eq_blocked_iff_arrived`), and it
        never hits before its arrival or against the shield.
      * Once it has arrived it comes no farther away, since then more time
        and more speed both take it towards the heart
        (`Onward.distance_le`). -/

namespace BeatShield.Run

/-! ## Distances -/

variable {run later : Run Rat} {tempo : Rat} {event : Event Rat}

/-- The distance is the time that is left, at the speed of the run, behind
    the ring. -/
theorem distance_exact (run : Run Rat) (tempo : Rat) (event : Event Rat) :
    run.distance tempo event
      = (event.arrival - run.elapsed) * (run.speed * (tempo / 60)) + 48 := by
  rw [distance, Tempo.beatRate_exact, Rules.shieldRadius_exact, mul_assoc]

/-- How far a projectile comes in a second of the music is positive. -/
theorem approach_pos (hspeed : Rules.initialSpeed ≤ run.speed) (htempo : 0 < tempo) :
    0 < run.speed * (tempo / 60) := by
  rw [Rules.initialSpeed_exact] at hspeed
  have hspeed' : 0 < run.speed := by linarith
  have hrate : 0 < tempo / 60 := by linarith
  exact mul_pos hspeed' hrate

/-- A projectile is on the ring exactly when it arrives. -/
theorem distance_eq_iff (hspeed : Rules.initialSpeed ≤ run.speed) (htempo : 0 < tempo) :
    run.distance tempo event = Rules.shieldRadius ↔ run.elapsed = event.arrival := by
  have hpos := approach_pos hspeed htempo
  rw [distance_exact, Rules.shieldRadius_exact, add_eq_right, mul_eq_zero, sub_eq_zero]
  constructor
  · rintro (h | h)
    · exact h.symm
    · exact absurd h hpos.ne'
  · intro h
    exact .inl h.symm

theorem distance_lt_iff (hspeed : Rules.initialSpeed ≤ run.speed) (htempo : 0 < tempo) :
    run.distance tempo event < Rules.shieldRadius ↔ event.arrival < run.elapsed := by
  have hpos := approach_pos hspeed htempo
  rw [distance_exact, Rules.shieldRadius_exact, add_lt_iff_neg_right,
    ← sub_neg (a := event.arrival)]
  constructor
  · intro h
    exact neg_of_mul_neg_left h hpos.le
  · intro h
    exact mul_neg_of_neg_of_pos h hpos

/-- A projectile that has arrived comes no farther away. -/
theorem Onward.distance_le (h : Onward run later) (hspeed : Rules.initialSpeed ≤ run.speed)
    (htempo : 0 < tempo) (harrived : event.arrival < run.elapsed) :
    later.distance tempo event ≤ run.distance tempo event := by
  have hrate : 0 ≤ tempo / 60 := by linarith
  have hpos := approach_pos hspeed htempo
  have hfaster : run.speed * (tempo / 60) ≤ later.speed * (tempo / 60) :=
    mul_le_mul_of_nonneg_right h.speed hrate
  -- behind the ring the speed counts downwards, so gaining speed takes the
  -- projectile further in
  have hlate : event.arrival - later.elapsed ≤ 0 := by linarith [h.elapsed]
  have hlonger : event.arrival - later.elapsed ≤ event.arrival - run.elapsed := by
    linarith [h.elapsed]
  rw [distance_exact, distance_exact]
  calc (event.arrival - later.elapsed) * (later.speed * (tempo / 60)) + 48
      ≤ (event.arrival - later.elapsed) * (run.speed * (tempo / 60)) + 48 := by
        linarith [mul_le_mul_of_nonpos_left hfaster hlate]
    _ ≤ (event.arrival - run.elapsed) * (run.speed * (tempo / 60)) + 48 := by
        linarith [mul_le_mul_of_nonneg_right hlonger hpos.le]

/-! ## Verdicts -/

/-- So it is blocked exactly if it has arrived and the shield is there. -/
theorem outcome_eq_blocked_iff_arrived (hspeed : Rules.initialSpeed ≤ run.speed)
    (htempo : 0 < tempo) :
    run.outcome tempo event = .blocked ↔
      run.shield = some event.side ∧ event.arrival < run.elapsed := by
  rw [outcome_eq_blocked_iff, distance_lt_iff hspeed htempo]

/-- What hits has arrived, and the shield does not face it. -/
theorem arrived_of_hits (hspeed : Rules.initialSpeed ≤ run.speed) (htempo : 0 < tempo)
    (hhit : run.outcome tempo event = .hit) :
    event.arrival < run.elapsed ∧ run.shield ≠ some event.side := by
  obtain ⟨hnot, hnear⟩ := outcome_eq_hit_iff.mp hhit
  have hinside : run.distance tempo event < Rules.shieldRadius := by
    rw [Rules.hurtRadius_exact] at hnear
    rw [Rules.shieldRadius_exact]
    linarith
  exact ⟨(distance_lt_iff hspeed htempo).mp hinside, fun hshield => hnot ⟨hshield, hinside⟩⟩

section

variable [Trig Rat]

/-- In exact arithmetic and at a positive tempo, after any requests whose
    frames do not last a negative time:

    the speed is at least the first one, and a projectile is on the ring of
    the shield exactly at its arrival and inside exactly after it;

    in a frame of a live run, a live projectile is blocked exactly if the
    shield faces it and it has arrived, and then alone it does not stay
    live, and it hits only if it has arrived and the shield does not face
    it;

    and a projectile that has arrived comes no farther away until the run
    starts over. -/
theorem ring_is_crossed_on_arrival (chart : Chart Rat) (htempo : 0 < chart.tempo)
    (requests : List (Request Rat)) (htimely : ∀ request ∈ requests, request.Timely) :
    let run := (Run.ofChart chart).after chart requests
    Rules.initialSpeed ≤ run.speed ∧
      (∀ event : Event Rat,
        (run.distance chart.tempo event = Rules.shieldRadius ↔ run.elapsed = event.arrival) ∧
        (run.distance chart.tempo event < Rules.shieldRadius ↔ event.arrival < run.elapsed)) ∧
      (run.isDying = false → ∀ (dt : Rat) (sides : List Direction), 0 ≤ dt →
        let now := run.judging dt sides
        ∀ event ∈ run.live,
          (now.outcome chart.tempo event = .blocked ↔
            now.shield = some event.side ∧ event.arrival < now.elapsed) ∧
          (event ∈ (run.frame chart dt { sides }).run.live ↔
            ¬ (now.shield = some event.side ∧ event.arrival < now.elapsed)) ∧
          (now.outcome chart.tempo event = .hit →
            event.arrival < now.elapsed ∧ now.shield ≠ some event.side)) ∧
      ∀ event : Event Rat, event.arrival < run.elapsed →
        ∀ later : List (Request Rat),
          (∀ request ∈ later, request.Timely ∧ request.restarts = false) →
            (run.after chart later).distance chart.tempo event
              ≤ run.distance chart.tempo event := by
  intro run
  have hspeed : Rules.initialSpeed ≤ run.speed :=
    initialSpeed_le_speed chart (le_refl _) htimely
  refine ⟨hspeed, ?_, ?_, ?_⟩
  · intro event
    exact ⟨distance_eq_iff hspeed htempo, distance_lt_iff hspeed htempo⟩
  · intro halive dt sides hdt now event hmem
    have hspeed' : Rules.initialSpeed ≤ now.speed := hspeed
    -- the state that judges has the time after the frame and the speed
    -- before it
    have hblocked : now.outcome chart.tempo event = .blocked ↔
        now.shield = some event.side ∧ event.arrival < now.elapsed :=
      outcome_eq_blocked_iff_arrived hspeed' htempo
    refine ⟨hblocked, ?_, arrived_of_hits hspeed' htempo⟩
    have hlive := step_live chart halive { dt, sides }
    show event ∈ (run.step chart { dt, sides }).run.live ↔ _
    rw [hlive, List.mem_filter, ← hblocked, ← blocks_iff]
    simp [hmem, now]
  · intro event harrived later hlater
    exact (after_onward chart run hlater).distance_le hspeed htempo harrived

end

/-- A projectile that arrives at second 1 is on the ring then, and a shield
    that faces it blocks it in the next frame.  Without one it hits, and
    then passes the heart. -/
theorem unshielded_arrival_passes_the_heart :
    let _trig : Trig Rat := { pi := 22 / 7, cos := id, sin := id }
    let event : Event Rat := { arrival := 1, side := .up }
    let chart : Chart Rat := { tempo := 60, start := 0, events := [event] }
    let requests : List (Request Rat) := [.frame 1 { restart := true }, .start, .frame 1 {}]
    let run := (Run.ofChart chart).after chart requests
    let struck := (Run.ofChart chart).after chart (requests ++ [.frame (1 / 2) {}])
    0 < chart.tempo ∧ (∀ request ∈ requests, request.Timely) ∧
      run.isDying = false ∧ event ∈ run.live ∧
      run.distance chart.tempo event = Rules.shieldRadius ∧
      event ∉ (run.frame chart (1 / 2) { sides := [.up] }).run.live ∧
      struck.isDying = true ∧ event.arrival < struck.elapsed ∧
      (struck.after chart [.frame (1 / 2) { sides := [.up] }]).distance chart.tempo event
        ≤ struck.distance chart.tempo event := by
  intro _trig event chart requests run struck
  have htempo : 0 < chart.tempo := by norm_num [chart]
  have htimely : ∀ request ∈ requests, request.Timely := by simp [requests, Request.Timely]
  have hlonger : ∀ request ∈ requests ++ [.frame (1 / 2) {}], request.Timely := by
    simp [requests, Request.Timely]
  have halive : run.isDying = false := by decide +kernel
  have hlive : event ∈ run.live := by decide +kernel
  have harrived : event.arrival < struck.elapsed := by decide +kernel
  obtain ⟨-, hring, hframe, -⟩ := ring_is_crossed_on_arrival chart htempo requests htimely
  obtain ⟨-, -, -, hpast⟩ := ring_is_crossed_on_arrival chart htempo _ hlonger
  refine ⟨htempo, htimely, halive, hlive, (hring event).1.mpr (by decide +kernel), ?_,
    by decide +kernel, harrived, ?_⟩
  · rw [(hframe halive (1 / 2) [.up] (by norm_num) event hlive).2.1]
    exact not_not_intro ⟨by decide +kernel, by decide +kernel⟩
  · refine hpast event harrived _ ?_
    simp [Request.Timely, Request.restarts]

end BeatShield.Run
