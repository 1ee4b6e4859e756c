import BeatShield.Number.Binary
import BeatShield.Proofs.Run.Request

/-! # Verdict — a frame of a live run, said without its loop

    `Run.settle` keeps score, shake and death as it goes through the live
    projectiles.  `Run.declared` says what a frame comes to in other
    words: every projectile is judged once, in the state `Run.judging`,
    and the frame is put together from these verdicts alone.

      * The projectiles that are not blocked stay, and the others are
        counted.
      * The place of the first hit says where the death is commanded and
        which blocks shake the camera in the end.

    `live_frame_is_declared` says that both are the same frame. -/

namespace BeatShield.Run

variable {α : Type} [Scalar α]

/-- The place of the first projectile that hits.  If none does, it is the
    place behind the last one. -/
def firstHit (run : Run α) (tempo : α) (events : List (Event α)) : Nat :=
  events.findIdx (run.hits tempo)

/-- The shake after several blocks. -/
def shaken (shake : α) (blocks : Nat) : α := (· + Rules.shakeImpulse)^[blocks] shake

variable [Trig α]

/-- What is commanded for the projectile at a place: a kick and a burst for
    a block, the death for the first hit, and nothing for any other. -/
def reply (run : Run α) (tempo : α) (first : Nat) (event : Event α) (place : Nat) :
    List (Command α) :=
  match run.outcome tempo event with
  | .blocked => [.play .kick, .explode (run.explosion tempo event)]
  | .hit => if place = first then [.stop .song, .play .death] else []
  | .pending => []

/-- A frame of a live run, from the verdicts on its live projectiles. -/
def declared (run : Run α) (tempo dt : α) (sides : List Direction) : Frame α :=
  let now := run.judging dt sides
  let first := now.firstHit tempo run.live
  { run :=
      { elapsed := now.elapsed
        speed := run.speed + dt * Rules.speedRamp
        shield := now.shield
        score := run.score + run.live.countP (now.blocks tempo)
        death := if run.live.any (now.hits tempo) then some 0.0 else none
        live := run.live.filter fun event => !now.blocks tempo event
        shake :=
          (if run.live.any (now.hits tempo) then
            shaken 0.0 ((run.live.drop (first + 1)).countP (now.blocks tempo))
          else shaken run.shake (run.live.countP (now.blocks tempo))) * Rules.shakeDecay }
    passed := dt * pace none
    commands := run.live.zipIdx.flatMap fun p => now.reply tempo first p.1 p.2
    notices := (run.live.find? (now.hits tempo)).toList.map fun event =>
      .hit event.side now.elapsed
        (run.score + (run.live.take first).countP (now.blocks tempo)) }

/-! ## Commands by place -/

variable {run : Run α} {tempo : α}

omit [Trig α] in
/-- Without a hit the place of the first is behind all projectiles. -/
theorem firstHit_of_calm {events : List (Event α)}
    (hcalm : ∀ event ∈ events, run.outcome tempo event ≠ .hit) :
    run.firstHit tempo events = events.length := by
  rw [firstHit, List.findIdx_eq_length]
  intro event hmem
  simpa [hits] using hcalm event hmem

omit [Trig α] in
/-- Otherwise it is where the first hit stands. -/
theorem firstHit_append {before after : List (Event α)} {event : Event α}
    (hbefore : ∀ e ∈ before, run.outcome tempo e ≠ .hit)
    (hhit : run.outcome tempo event = .hit) :
    run.firstHit tempo (before ++ event :: after) = before.length := by
  have hnone : before.findIdx (run.hits tempo) = before.length := firstHit_of_calm hbefore
  rw [firstHit, List.findIdx_append, hnone]
  simp [List.findIdx_cons, hits_iff.mpr hhit]

/-- Away from the first hit only blocks command anything. -/
theorem flatMap_reply (run : Run α) (tempo : α) (first offset : Nat) (events : List (Event α))
    (h : ∀ place, offset ≤ place → place < offset + events.length → place ≠ first) :
    ((events.zipIdx offset).flatMap fun p => run.reply tempo first p.1 p.2)
      = run.volleys tempo events := by
  induction events generalizing offset with
  | nil => rfl
  | cons event rest ih =>
      have hrest := ih (offset + 1) fun place hlow hhigh =>
        h place (by omega) (by simp only [List.length_cons]; omega)
      have hplace : offset ≠ first := h offset (Nat.le_refl _) (by simp)
      rw [List.zipIdx_cons, List.flatMap_cons, hrest]
      -- away from the first hit a projectile replies like a block, or not at
      -- all
      cases ho : run.outcome tempo event with
      | blocked =>
          rw [volleys_cons_of_blocks (blocks_iff.mpr ho)]
          simp [reply, ho]
      | hit =>
          rw [volleys_cons_of_not_blocks (by simp [blocks, ho])]
          simp [reply, ho, hplace]
      | pending =>
          rw [volleys_cons_of_not_blocks (by simp [blocks, ho])]
          simp [reply, ho]

/-- Without a hit all replies are those of blocks. -/
theorem flatMap_reply_of_calm {events : List (Event α)}
    (hcalm : ∀ event ∈ events, run.outcome tempo event ≠ .hit) :
    (events.zipIdx.flatMap fun p => run.reply tempo (run.firstHit tempo events) p.1 p.2)
      = run.volleys tempo events := by
  apply flatMap_reply
  intro place _ hhigh
  rw [firstHit_of_calm hcalm]
  omega

/-- The first hit commands the death in its place among the blocks. -/
theorem flatMap_reply_append {before after : List (Event α)} {event : Event α}
    (hbefore : ∀ e ∈ before, run.outcome tempo e ≠ .hit)
    (hhit : run.outcome tempo event = .hit) :
    ((before ++ event :: after).zipIdx.flatMap fun p =>
        run.reply tempo (run.firstHit tempo (before ++ event :: after)) p.1 p.2)
      = run.volleys tempo before ++ .stop .song :: .play .death :: run.volleys tempo after := by
  have hearlier := flatMap_reply run tempo before.length 0 before
    fun place _ hhigh => by omega
  have hlater := flatMap_reply run tempo before.length (before.length + 1) after
    fun place hlow _ => by omega
  rw [firstHit_append hbefore hhit, List.zipIdx_append, List.flatMap_append, List.zipIdx_cons,
    List.flatMap_cons, hearlier, Nat.zero_add, hlater]
  simp [reply, hhit]

/-! ## The frame -/

/-- A frame of a live run without a restart is the declared one: the
    outcomes of its live projectiles, each judged once in the state whose
    time has passed and whose shield is turned, decide all that changes and
    all that is commanded. -/
theorem live_frame_is_declared (run : Run α) (chart : Chart α) (dt : α) (presses : Presses)
    (halive : run.isDying = false) (hrestart : presses.restart = false) :
    run.frame chart dt presses = run.declared chart.tempo dt presses.sides := by
  rw [frame_of_not_restart run chart dt hrestart, advance_of_alive halive, declared]
  have hdeath : (run.judging dt presses.sides).death = none := by
    show run.death = none
    simpa [isDying] using halive
  have hscore : (run.judging dt presses.sides).score = run.score := rfl
  have hshake : (run.judging dt presses.sides).shake = run.shake := rfl
  have hspeed : (run.judging dt presses.sides).speed = run.speed := rfl
  -- all that matters of the frame is the state that judges, which has the
  -- scores of the run
  generalize run.judging dt presses.sides = now at hdeath hscore hshake hspeed ⊢
  generalize run.live = events
  rcases calm_or_first_hit chart.tempo now events with
    hcalm | ⟨before, event, after, rfl, hbefore, hhit⟩
  · have hany : events.any (now.hits chart.tempo) = false := by simpa [hits] using hcalm
    have hfind : events.find? (now.hits chart.tempo) = none := by simpa [hits] using hcalm
    rw [settle_calm chart.tempo now events (.inr hcalm), flatMap_reply_of_calm hcalm, hany, hfind,
      ← hscore, ← hshake, ← hspeed]
    simp [ease, addBlocks, shaken, hdeath]
  · have hfirst : now.firstHit chart.tempo (before ++ event :: after) = before.length :=
      firstHit_append hbefore hhit
    have hb : now.blocks chart.tempo event = false := by simp [blocks, hhit]
    have hany : (before ++ event :: after).any (now.hits chart.tempo) = true := by
      simp [hits_iff.mpr hhit]
    have hfind : (before ++ event :: after).find? (now.hits chart.tempo) = some event := by
      rw [List.find?_append, List.find?_eq_none.mpr (by simpa [hits] using hbefore)]
      simp [hits_iff.mpr hhit]
    have halive : now.isDying = false := by simp [isDying, hdeath]
    rw [settle_first_hit chart.tempo now before event after halive hbefore hhit,
      flatMap_reply_append hbefore hhit, hany, hfind, hfirst, ← hscore, ← hspeed]
    simp [ease, addBlocks, beginDeath, shaken, hb, Int.add_assoc]

/-- Two blocks around a hit: both score, only the second is left in the
    shake, and the death is commanded between them. -/
theorem blocks_around_a_hit :
    let caught : Event Float := { arrival := -1.0, side := .up }
    let missed : Event Float := { arrival := -1.0, side := .left }
    let distant : Event Float := { arrival := 100.0, side := .right }
    let chart : Chart Float :=
      { tempo := 60.0, start := 0.0, events := [caught, missed, caught, distant] }
    let f := (Run.ofChart chart).frame chart 0.5 { sides := [.up] }
    (Run.ofChart chart).isDying = false ∧ f.run.score = 2 ∧ f.run.death = some 0.0 ∧
      f.run.live = [missed, distant] ∧ f.run.shake = (0.0 + 0.01) * 0.9 ∧
      ∃ burst, f.commands = [.play .kick, .explode burst, .stop .song, .play .death,
        .play .kick, .explode burst] := by
  intro caught missed distant chart f
  have hf : f = (Run.ofChart chart).declared chart.tempo 0.5 [.up] :=
    live_frame_is_declared (Run.ofChart chart) chart 0.5 { sides := [.up] } rfl rfl
  have hcaught : ((Run.ofChart chart).judging 0.5 [.up]).outcome chart.tempo caught = .blocked := by
    decide +kernel
  have hmissed : ((Run.ofChart chart).judging 0.5 [.up]).outcome chart.tempo missed = .hit := by
    decide +kernel
  have hdistant :
      ((Run.ofChart chart).judging 0.5 [.up]).outcome chart.tempo distant = .pending := by
    decide +kernel
  have hbefore : ∀ e ∈ [caught],
      ((Run.ofChart chart).judging 0.5 [.up]).outcome chart.tempo e ≠ .hit := by
    simp [hcaught]
  have hlive : (Run.ofChart chart).live = [caught, missed, caught, distant] := rfl
  have hfirst : ((Run.ofChart chart).judging 0.5 [.up]).firstHit chart.tempo
      [caught, missed, caught, distant] = 1 :=
    firstHit_append hbefore hmissed
  rw [hf]
  refine ⟨rfl, ?_, ?_, ?_, ?_, ((Run.ofChart chart).judging 0.5 [.up]).explosion chart.tempo caught,
    ?_⟩
  · simp [declared, hlive, blocks, hcaught, hmissed, hdistant]
    rfl
  · simp [declared, hlive, hits, hmissed]
  · simp [declared, hlive, blocks, hcaught, hmissed, hdistant]
  · simp [declared, hlive, hfirst, hits, blocks, hcaught, hmissed, hdistant]
    rfl
  · simp [declared, hlive, hfirst, reply, hcaught, hmissed, hdistant]

end BeatShield.Run
