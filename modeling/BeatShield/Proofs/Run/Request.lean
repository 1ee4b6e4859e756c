import BeatShield.Proofs.Run.Settle
import Mathlib.Data.List.DropRight

/-! # Requests — everything that is asked of a run

    A run is moved by frames and by restarts; starting and stopping only
    return commands.  `Run.answer` is one such step.  For the steps that
    change the run it is said here once what they do:

      * a frame that restarts, and a restart, lead to the fresh run and
        end with the commands that stop and play the song
        (`answer_of_restarts`);
      * a frame of a dying run lets time pass (`advance_of_dying`);
      * a frame of a live run settles its projectiles in the state
        `Run.judging` and then eases (`advance_of_alive`). -/

namespace BeatShield.Run

/-- What may be asked of a run. -/
inductive Request (α : Type) where
  | frame (dt : α) (presses : Presses)
  | restart
  | start
  | stop

/-- Whether a request makes the run start over. -/
def Request.restarts {α : Type} : Request α → Bool
  | .frame _ presses => presses.restart
  | .restart => true
  | .start | .stop => false

variable {α : Type} [Scalar α]

/-- The state in which a frame judges the projectiles: its time has passed
    and the shield is turned. -/
def judging (run : Run α) (dt : α) (sides : List Direction) : Run α :=
  { run with elapsed := run.elapsed + dt * pace run.death }.turnShield sides

variable [Trig α]

/-- The run after a request, and the commands that the request returns. -/
def answer (chart : Chart α) (run : Run α) : Request α → Run α × List (Command α)
  | .frame dt presses =>
      let f := run.frame chart dt presses
      (f.run, f.commands)
  | .restart =>
      let (fresh, commands, _) := Run.restart chart
      (fresh, commands)
  | .start => (run, start)
  | .stop => (run, stop)

/-- The run after several requests. -/
def after (chart : Chart α) (run : Run α) (requests : List (Request α)) : Run α :=
  requests.foldl (fun run request => (run.answer chart request).1) run

/-! ## Frames -/

/-- Without the restart key a frame advances the run. -/
theorem frame_of_not_restart (run : Run α) (chart : Chart α) (dt : α) {presses : Presses}
    (h : presses.restart = false) :
    run.frame chart dt presses = run.advance chart.tempo dt presses.sides := by
  simp [frame, h]

/-- With it the run starts over, and the song is started again behind what
    the frame commands. -/
theorem frame_of_restart (run : Run α) (chart : Chart α) (dt : α) {presses : Presses}
    (h : presses.restart = true) :
    run.frame chart dt presses
      = { run := Run.ofChart chart
          passed := (run.advance chart.tempo dt presses.sides).passed
          commands := (run.advance chart.tempo dt presses.sides).commands ++ (stop ++ start)
          notices := (run.advance chart.tempo dt presses.sides).notices
            ++ [.restarted chart.events.length] } := by
  simp only [frame, if_pos h]
  rfl

/-- A dying run only lets time pass, slowed in the game and real in the
    course of death. -/
theorem advance_of_dying {run : Run α} {death : α} (h : run.death = some death)
    (tempo dt : α) (sides : List Direction) :
    run.advance tempo dt sides
      = { run := { run with
            elapsed := run.elapsed + dt * pace (some death)
            death := some (death + dt) }
          passed := dt * pace (some death)
          commands := []
          notices := [] } := by
  simp only [advance, h]
  rfl

/-- A live run judges its projectiles first, and eases then. -/
theorem advance_of_alive {run : Run α} (h : run.isDying = false)
    (tempo dt : α) (sides : List Direction) :
    run.advance tempo dt sides
      = { run := (settle tempo (run.judging dt sides) run.live).run.ease dt
          passed := dt * pace none
          commands := (settle tempo (run.judging dt sides) run.live).commands
          notices := (settle tempo (run.judging dt sides) run.live).notices } := by
  have hdeath : run.death = none := isDying_eq_false_iff.mp h
  simp only [advance, judging, hdeath]
  rfl

/-! ## Restarts -/

/-- What is left of a list without its last members of one kind ends with a
    member that is not of this kind, unless nothing is left. -/
theorem rdropWhile_eq_nil_or_concat {β : Type} (kind : β → Bool) (list : List β) :
    list.rdropWhile kind = [] ∨
      ∃ earlier last, list.rdropWhile kind = earlier ++ [last] ∧ kind last = false := by
  rcases List.eq_nil_or_concat (list.rdropWhile kind) with hnone | ⟨earlier, last, hlast⟩
  · exact .inl hnone
  · have hstop := List.rdropWhile_last_not kind list (by simp [hlast])
    exact .inr ⟨earlier, last, by rw [hlast, List.concat_eq_append], by simpa [hlast] using hstop⟩

/-- What a list makes of a fresh state is what its members since the last
    reset make of it. -/
theorem foldl_since_reset {σ β : Type} {f : σ → β → σ} {fresh : σ} {resets : β → Bool}
    (h : ∀ state b, resets b = true → f state b = fresh) (list : List β) :
    list.foldl f fresh = (list.rtakeWhile fun b => !resets b).foldl f fresh := by
  have hearlier : (list.rdropWhile fun b => !resets b).foldl f fresh = fresh := by
    rcases rdropWhile_eq_nil_or_concat (fun b => !resets b) list with
      hnone | ⟨earlier, last, hlast, hreset⟩
    · rw [hnone]
      rfl
    · rw [hlast, List.foldl_append]
      exact h _ last (by simpa using hreset)
  have hsplit : (list.rdropWhile fun b => !resets b) ++ (list.rtakeWhile fun b => !resets b)
      = list := List.rdropWhile_append_rtakeWhile ..
  rw [← congrArg (List.foldl f fresh) hsplit, List.foldl_append, hearlier]

/-- Whatever restarts leads to the fresh run, and last of all returns the
    commands that stop and play the song. -/
theorem answer_of_restarts (chart : Chart α) (run : Run α) {request : Request α}
    (h : request.restarts = true) :
    ∃ earlier, run.answer chart request = (Run.ofChart chart, earlier ++ (stop ++ start)) := by
  cases request with
  | frame dt presses =>
      refine ⟨(run.advance chart.tempo dt presses.sides).commands, ?_⟩
      show ((run.frame chart dt presses).run, (run.frame chart dt presses).commands) = _
      rw [frame_of_restart run chart dt h]
  | restart => exact ⟨[], rfl⟩
  | start => exact nomatch h
  | stop => exact nomatch h

end BeatShield.Run
