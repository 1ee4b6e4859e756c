import BeatShield.Proofs.Number.Bounds
import BeatShield.Proofs.Particles
import BeatShield.Proofs.Run.Apart

/-! # Clock — how far a run's clocks get

    In a frame of at most one second each clock moves by at most one
    second.  So it never passes 2^53 seconds: there doubles are two apart,
    and one more second is rounded away (`Timed.frame`).

    What a frame asks of the particles is bounded as well, since all its
    bursts are usual ones (`usual_of_mem_frame`). -/

namespace BeatShield.Run

open Double

/-- Beyond this no clock gets in frames of at most one second. -/
def latest : Float := nearestDouble (twoTo 53)

/-- The clocks of a run stand between zero and the latest time. -/
structure Timed (run : Run Float) : Prop where
  elapsed : Within 0.0 latest run.elapsed
  death : ∀ death, run.death = some death → Within 0.0 latest death

variable {run : Run Float}

/-- The clocks of a fresh run stand at zero. -/
theorem timed_ofChart (chart : Chart Float) : Timed (Run.ofChart chart) :=
  ⟨show Within 0.0 latest 0.0 by decide +kernel, nofun⟩

/-- The pace is between nothing and the whole. -/
theorem Timed.pace (h : Timed run) : Within 0.0 1.0 (pace run.death) := by
  cases hd : run.death with
  | none => decide +kernel
  | some death =>
      have hone : Within 1.0 1.0 1.0 := .self rfl
      have hleft : Within (-latest) 1.0 (1.0 - death) :=
        hone.sub (h.death death hd) (by decide +kernel)
      show Within 0.0 1.0 (if 0.0 < 1.0 - death then 1.0 - death else 0.0)
      by_cases hpos : 0.0 < 1.0 - death
      · rw [if_pos hpos]
        exact ⟨rfl, rfl, Double.le_of_lt hpos, hleft.high⟩
      · rw [if_neg hpos]
        exact .zero

/-- Time in the game does not pass faster than real time. -/
theorem Timed.passed (h : Timed run) {dt : Float} (hdt : Within 0.0 1.0 dt) :
    Within 0.0 1.0 (dt * Run.pace run.death) :=
  hdt.part h.pace .zero

/-- At the latest time the music's clock stands still, since one more
    second is rounded away. -/
theorem Timed.later (h : Timed run) {dt : Float} (hdt : Within 0.0 1.0 dt) :
    Within 0.0 latest (run.elapsed + dt * Run.pace run.death) :=
  h.elapsed.add (h.passed hdt) (by decide +kernel)

/-- A death that begins in a frame begins at zero. -/
theorem settle_death (tempo : Float) (run : Run Float) (events : List (Event Float))
    (halive : run.isDying = false) :
    (settle tempo run events).run.death = none ∨
      (settle tempo run events).run.death = some 0.0 := by
  rcases calm_or_first_hit tempo run events with hcalm | ⟨before, event, after, rfl, hno, hhit⟩
  · rw [settle_calm tempo run events (.inr hcalm)]
    exact .inl (Option.isNone_iff_eq_none.mp (Option.isSome_eq_false_iff.mp halive))
  · rw [settle_first_hit tempo run before event after halive hno hhit]
    exact .inr rfl

/-- A frame keeps both clocks within bounds, and what passes in it. -/
theorem Timed.advance (h : Timed run) (tempo : Float) {dt : Float} (hdt : Within 0.0 1.0 dt)
    (sides : List Direction) :
    Timed (run.advance tempo dt sides).run ∧
      Within 0.0 1.0 (run.advance tempo dt sides).passed := by
  cases hd : run.death with
  | some death =>
      have hlater := h.later hdt
      have hpassed := h.passed hdt
      rw [hd] at hlater hpassed
      rw [advance_of_dying hd]
      -- a dying run's own clock moves in real time, and is rounded away just
      -- the same
      refine ⟨⟨hlater, fun time htime => ?_⟩, hpassed⟩
      obtain rfl := Option.some.inj htime
      exact (h.death death hd).add hdt (by decide +kernel)
  | none =>
      have halive : run.isDying = false := by rw [isDying, hd]; rfl
      have hpassed := h.passed hdt
      rw [hd] at hpassed
      rw [advance_of_alive halive]
      refine ⟨⟨?_, fun time htime => ?_⟩, hpassed⟩
      · show Within 0.0 latest (settle tempo (run.judging dt sides) run.live).run.elapsed
        rw [(settle_inStep tempo (run.judging dt sides) run.live halive).elapsed]
        exact h.later hdt
      · -- a death begins at zero if there is one
        have hdeath := settle_death tempo (run.judging dt sides) run.live halive
        have htime : (settle tempo (run.judging dt sides) run.live).run.death = some time := htime
        rcases hdeath with hnone | hsome
        · rw [hnone] at htime
          cases htime
        · obtain rfl := Option.some.inj (hsome.symm.trans htime)
          decide +kernel

/-- A frame keeps the clocks within bounds, also when it restarts. -/
theorem Timed.frame (h : Timed run) (chart : Chart Float) {dt : Float} (hdt : Within 0.0 1.0 dt)
    (presses : Presses) :
    Timed (run.frame chart dt presses).run ∧
      Within 0.0 1.0 (run.frame chart dt presses).passed := by
  obtain ⟨hrun, hpassed⟩ := h.advance chart.tempo hdt presses.sides
  cases hr : presses.restart with
  | false =>
      rw [frame_of_not_restart run chart dt hr]
      exact ⟨hrun, hpassed⟩
  | true =>
      rw [frame_of_restart run chart dt hr]
      exact ⟨timed_ofChart chart, hpassed⟩

/-! ## Bursts -/

/-- The bursts of blocks are usual ones. -/
theorem usual_of_mem_volleys {tempo : Float} {events : List (Event Float)}
    {burst : Explosion Float} (h : .explode burst ∈ run.volleys tempo events) : burst.Usual := by
  obtain ⟨event, -, hburst⟩ := List.mem_flatMap.mp h
  obtain rfl : burst = run.explosion tempo event := by simpa [volley] using hburst
  exact run.explosion_usual tempo event

theorem usual_of_mem_settle {tempo : Float} {events : List (Event Float)}
    {burst : Explosion Float} (halive : run.isDying = false)
    (h : .explode burst ∈ (settle tempo run events).commands) : burst.Usual := by
  rcases calm_or_first_hit tempo run events with hcalm | ⟨before, event, after, rfl, hno, hhit⟩
  · rw [settle_calm tempo run events (.inr hcalm)] at h
    exact usual_of_mem_volleys h
  · rw [settle_first_hit tempo run before event after halive hno hhit] at h
    rcases List.mem_append.mp h with hbefore | hend
    · exact usual_of_mem_volleys hbefore
    · have hafter : .explode burst ∈ run.volleys tempo after := by simpa using hend
      exact usual_of_mem_volleys hafter

theorem usual_of_mem_advance {tempo dt : Float} {sides : List Direction} {burst : Explosion Float}
    (h : .explode burst ∈ (run.advance tempo dt sides).commands) : burst.Usual := by
  cases hd : run.death with
  | some death =>
      rw [advance_of_dying hd] at h
      exact nomatch h
  | none =>
      have halive : run.isDying = false := by rw [isDying, hd]; rfl
      have hjudging : (run.judging dt sides).isDying = false := halive
      rw [advance_of_alive halive] at h
      exact usual_of_mem_settle hjudging h

/-- No frame asks for any but usual bursts, also one that restarts. -/
theorem usual_of_mem_frame {chart : Chart Float} {dt : Float} {presses : Presses}
    {burst : Explosion Float} (h : .explode burst ∈ (run.frame chart dt presses).commands) :
    burst.Usual := by
  cases hr : presses.restart with
  | false =>
      rw [frame_of_not_restart run chart dt hr] at h
      exact usual_of_mem_advance h
  | true =>
      rw [frame_of_restart run chart dt hr] at h
      rcases List.mem_append.mp h with hearlier | hend
      · exact usual_of_mem_advance hearlier
      · simp [stop, start] at hend

end BeatShield.Run
