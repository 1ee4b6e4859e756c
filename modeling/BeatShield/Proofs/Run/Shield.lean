import BeatShield.Proofs.Input
import BeatShield.Proofs.Run.Apart

/-! # Shield — the shield follows the presses

    A run is played by what happens to the window, frame by frame.  The
    shield keeps the side it was turned to, so where it is can be read off
    the script alone once it is known which frames are heard: those that
    begin with a live run, after the last restart.

      * `turnShield_shield` — within a frame the last pressed side in the
        order of `Direction.all` counts;
      * `shield_ticks` — along frames without a restart the last frame that
        is heard and presses a side counts, by induction on the frames;
      * `ticks_sinceRestart` — whatever was before a restart is forgotten.

    What a frame asks for does not depend on the order of its inputs, and
    so neither does anything in the run (`outcomes_congr`). -/

namespace BeatShield.Run

variable {α : Type}

/-- One frame as it is played: how long it lasts and what happens to the
    window in it. -/
structure Tick (α : Type) where
  dt : α
  inputs : List Input

namespace Tick

/-- What the inputs of the frame ask for. -/
def controls (t : Tick α) : Controls := .collect t.inputs

/-- Whether the frame restarts the run. -/
def restarts (t : Tick α) : Bool := decide (.press .r ∈ t.inputs)

/-- The last side, in the order of all four, that a key is pressed for. -/
def side? (t : Tick α) : Option Direction :=
  Direction.all.reverse.find? (· ∈ t.inputs.filterMap Input.side?)

/-- Frames of one length with the same inputs, in whatever order and
    however often each of them occurs. -/
structure Alike (one two : Tick α) : Prop where
  dt : one.dt = two.dt
  inputs : ∀ input, input ∈ one.inputs ↔ input ∈ two.inputs

theorem restart_controls (t : Tick α) : t.controls.presses.restart = t.restarts :=
  congrArg (·.presses.restart) (Controls.collect_eq t.inputs)

end Tick

/-- The frames since the last restart. -/
def sinceRestart (script : List (Tick α)) : List (Tick α) :=
  script.rtakeWhile fun t => !t.restarts

variable [Scalar α] [Trig α]

/-- One frame of a run that is played. -/
def tick (chart : Chart α) (run : Run α) (t : Tick α) : Frame α :=
  run.frame chart t.dt t.controls.presses

/-- The run after several frames. -/
def ticks (chart : Chart α) (run : Run α) (script : List (Tick α)) : Run α :=
  script.foldl (fun run t => (run.tick chart t).run) run

/-- What the frames of a script lead to, and what is asked for in them. -/
def outcomes (chart : Chart α) : Run α → List (Tick α) → List (Frame α × Controls)
  | _, [] => []
  | run, t :: rest => (run.tick chart t, t.controls) :: outcomes chart (run.tick chart t).run rest

/-- The frames of a script that begin with a live run. -/
def heard (chart : Chart α) : Run α → List (Tick α) → List (Tick α)
  | _, [] => []
  | run, t :: rest =>
      let later := heard chart (run.tick chart t).run rest
      if run.isDying then later else t :: later

/-! ## One frame -/

omit [Scalar α] [Trig α] in
/-- The last of the pressed sides counts, and without any the shield stays
    where it is. -/
theorem turnShield_shield (run : Run α) (pressed : List Direction) :
    (run.turnShield pressed).shield
      = (Direction.all.reverse.find? (· ∈ pressed)).or run.shield := by
  have hfold : ∀ (sides : List Direction) (shield : Option Direction),
      sides.foldl (fun shield side => if side ∈ pressed then some side else shield) shield
        = (sides.reverse.find? (· ∈ pressed)).or shield := by
    intro sides
    induction sides with
    | nil => exact fun shield => rfl
    | cons side rest ih =>
        intro shield
        rw [List.foldl_cons, ih, List.reverse_cons, List.find?_append, Option.or_assoc]
        by_cases h : side ∈ pressed <;> simp [h]
  exact hfold Direction.all run.shield

variable {chart : Chart α} {run : Run α} {t : Tick α}

theorem tick_of_restarts (h : t.restarts = true) : (run.tick chart t).run = Run.ofChart chart := by
  rw [tick, frame_of_restart run chart t.dt (t.restart_controls.trans h)]

theorem tick_of_not_restarts (h : t.restarts = false) :
    run.tick chart t = run.advance chart.tempo t.dt t.controls.presses.sides :=
  frame_of_not_restart run chart t.dt (t.restart_controls.trans h)

/-- A dying run keeps its shield where it is. -/
theorem shield_tick_of_dying (h : t.restarts = false) (hdying : run.isDying = true) :
    (run.tick chart t).run.shield = run.shield := by
  obtain ⟨death, hdeath⟩ := Option.isSome_iff_exists.mp hdying
  rw [tick_of_not_restarts h, advance_of_dying hdeath]

/-- A live one turns it where the tick says, if it says anything. -/
theorem shield_tick_of_alive (h : t.restarts = false) (halive : run.isDying = false) :
    (run.tick chart t).run.shield = t.side?.or run.shield := by
  have hsettled := settle_inStep chart.tempo (run.judging t.dt t.controls.presses.sides)
    run.live halive
  have hsides : ∀ side : Direction, side ∈ t.controls.presses.sides
      ↔ side ∈ t.inputs.filterMap Input.side? := fun side => Controls.mem_sides_collect
  rw [tick_of_not_restarts h, advance_of_alive halive]
  show (settle chart.tempo (run.judging t.dt t.controls.presses.sides) run.live).run.shield = _
  rw [hsettled.shield, judging, turnShield_shield, Tick.side?]
  simp only [hsides]

/-! ## Several frames -/

/-- As long as nothing restarts, the last frame that is heard and presses a
    side counts. -/
theorem shield_ticks (script : List (Tick α)) (h : ∀ t ∈ script, t.restarts = false) :
    (run.ticks chart script).shield
      = ((run.heard chart script).reverse.findSome? Tick.side?).or run.shield := by
  induction script generalizing run with
  | nil => rfl
  | cons t rest ih =>
      obtain ⟨ht, hrest⟩ := List.forall_mem_cons.mp h
      show ((run.tick chart t).run.ticks chart rest).shield = _
      rw [ih hrest, heard]
      cases hd : run.isDying with
      | true => rw [shield_tick_of_dying ht hd, if_pos rfl]
      | false =>
          rw [shield_tick_of_alive ht hd, if_neg Bool.false_ne_true, List.reverse_cons,
            List.findSome?_append, Option.or_assoc]
          simp

/-- Only the frames since the last restart matter. -/
theorem ticks_sinceRestart (script : List (Tick α)) :
    (Run.ofChart chart).ticks chart script
      = (Run.ofChart chart).ticks chart (sinceRestart script) := by
  have hreset (run : Run α) (t : Tick α) (h : t.restarts = true) :
      (run.tick chart t).run = Run.ofChart chart := tick_of_restarts h
  exact foldl_since_reset hreset script

/-- Ticks that press alike come to the same outcomes. -/
theorem outcomes_congr {one two : List (Tick α)} (h : List.Forall₂ Tick.Alike one two) :
    run.outcomes chart one = run.outcomes chart two := by
  induction h generalizing run with
  | nil => rfl
  | @cons t t' rest rest' hsame _ ih =>
      have hcontrols : t.controls = t'.controls := Controls.collect_congr hsame.inputs
      have htick : run.tick chart t = run.tick chart t' := by
        rw [tick, tick, hsame.dt, hcontrols]
      rw [outcomes, outcomes, htick, hcontrols, ih]

/-- However long the frames are and whatever happens to the window in them,
    the shield covers the last side that is pressed for, in the order of all
    four, in the last frame with such a press, of the frames since the last
    restart that began with a live run; without one it covers none.  Neither
    the order of the inputs of a frame nor their repetition changes any
    frame of the run, or what is asked for in it, for these are collected as
    if one input was heeded after the other, and two lists of inputs ask for
    whatever either of them asks for. -/
theorem shield_follows_presses (chart : Chart α) :
    (∀ script : List (Tick α), ((Run.ofChart chart).ticks chart script).shield
      = ((Run.ofChart chart).heard chart (sinceRestart script)).reverse.findSome? Tick.side?) ∧
    (∀ one two : List (Tick α), List.Forall₂ Tick.Alike one two →
      (Run.ofChart chart).outcomes chart one = (Run.ofChart chart).outcomes chart two) ∧
    (∀ inputs : List Input, Controls.collect inputs = inputs.foldl Controls.heed .idle) ∧
    ∀ first second : List Input,
      Controls.collect (first ++ second)
        = (Controls.collect first).union (Controls.collect second) := by
  refine ⟨fun script => ?_, fun one two => outcomes_congr, Controls.collect_eq_foldl,
    Controls.collect_append⟩
  -- what was pressed before the last restart is forgotten, and a fresh run
  -- has no shield
  have hquiet : ∀ t ∈ sinceRestart script, t.restarts = false := by
    intro t ht
    simpa using List.mem_rtakeWhile_imp ht
  rw [ticks_sinceRestart, shield_ticks _ hquiet]
  exact Option.or_none

/-- Two scripts that differ in the order and the number of their presses.
    The press of the fatal frame is heard, and the one after it is not. -/
theorem presses_after_death_are_not_heard :
    let chart : Chart Float := { tempo := 60.0, start := 0.0, events := [⟨0.0, .left, .normal⟩] }
    let hasty : List (Tick Float) :=
      [⟨0.5, [.press .d, .press .w, .press .d]⟩, ⟨0.25, [.press .a, .press .a]⟩]
    let calm : List (Tick Float) := [⟨0.5, [.press .w, .press .d]⟩, ⟨0.25, [.press .a]⟩]
    List.Forall₂ Tick.Alike hasty calm ∧
      (Run.ofChart chart).outcomes chart hasty = (Run.ofChart chart).outcomes chart calm ∧
      ((Run.ofChart chart).ticks chart hasty).isDying = true ∧
      ((Run.ofChart chart).ticks chart hasty).shield = some .right := by
  intro chart hasty calm
  obtain ⟨hshield, hsame, -, -⟩ := shield_follows_presses chart
  have halike : List.Forall₂ Tick.Alike hasty calm :=
    .cons ⟨rfl, by simp [or_comm]⟩ (.cons ⟨rfl, by simp⟩ .nil)
  refine ⟨halike, hsame hasty calm halike, by decide +kernel, ?_⟩
  rw [hshield]
  decide +kernel

end BeatShield.Run
