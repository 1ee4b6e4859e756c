import BeatShield.Run.Basic
import BeatShield.Run.Command

/-! # Frame — one step of a run

    A frame lets time pass, turns the shield, and settles every live
    projectile in turn.

      * A blocked projectile scores, shakes the camera and bursts.
      * The first hit ends the run; it takes the shake away, stops the
        song and plays the death sound.  Hit projectiles stay live.
      * While dying only time passes.
      * A restart comes last: whatever the frame did, the run is fresh
        afterwards and its last commands are to stop and play the song. -/

namespace BeatShield

/-- What was pressed in a frame. -/
structure Presses where
  sides : List Direction := []
  restart : Bool := false
  deriving DecidableEq, Repr

/-- What a frame leads to. -/
structure Frame (α : Type) where
  /-- The run after the frame. -/
  run : Run α
  /-- The seconds that passed in the game. -/
  passed : α
  /-- What is asked of sound and particles. -/
  commands : List (Command α)
  /-- What is reported. -/
  notices : List (RunNotice α)
  deriving DecidableEq, Repr

namespace Run

variable {α : Type} [Scalar α]

/-- The commands that start a run. -/
def start : List (Command α) := [.play .song]

/-- The commands that end a run. -/
def stop : List (Command α) := [.stop .song]

/-- The burst of a projectile that is blocked. -/
def explosion [Trig α] (run : Run α) (tempo : α) (event : Event α) : Explosion α :=
  { origin := run.position tempo event
    angle := Range.around event.side.angle Rules.explosionSpread
    speed := { low := Rules.explosionSlowest, high := Rules.explosionFastest }
    count := Rules.explosionCount
    life := Rules.explosionLife
    rotation := { low := 0.0, high := 2.0 * Trig.pi }
    spin := { low := -Trig.pi, high := Trig.pi }
    size := Rules.particleSize }

/-- Turns the shield to the last of the pressed sides, if any. -/
def turnShield (run : Run α) (pressed : List Direction) : Run α :=
  { run with
    shield := Direction.all.foldl
      (fun shield side => if side ∈ pressed then some side else shield) run.shield }

/-- One more block. -/
def addBlock (run : Run α) : Run α :=
  { run with score := run.score + 1, shake := run.shake + Rules.shakeImpulse }

/-- The run ends. -/
def beginDeath (run : Run α) : Run α := { run with death := some 0.0, shake := 0.0 }

/-- What settling some projectiles leads to. -/
structure Settled (α : Type) where
  run : Run α
  commands : List (Command α)
  notices : List (RunNotice α)

/-- A projectile that stays live, in front of others. -/
def Settled.keep (event : Event α) (s : Settled α) : Settled α :=
  { s with run := { s.run with live := event :: s.run.live } }

/-- Settles projectiles one after the other.  The live ones of the result
    are those that stay. -/
def settle [Trig α] (tempo : α) : Run α → List (Event α) → Settled α
  | run, [] => { run := { run with live := [] }, commands := [], notices := [] }
  | run, event :: rest =>
      match run.outcome tempo event with
      | .blocked =>
          let s := settle tempo run.addBlock rest
          { s with commands :=
              .play .kick :: .explode (run.explosion tempo event) :: s.commands }
      | .hit =>
          if run.isDying then (settle tempo run rest).keep event
          else
            let s := (settle tempo run.beginDeath rest).keep event
            { s with
              commands := .stop .song :: .play .death :: s.commands
              notices := .hit event.side run.elapsed run.score :: s.notices }
      | .pending => (settle tempo run rest).keep event

/-- A frame of a dying run: death goes on in real time. -/
def advanceDying (run : Run α) (death dt : α) : Run α :=
  { run with death := some (death + dt) }

/-- The camera calms down and the approach speeds up. -/
def ease (run : Run α) (dt : α) : Run α :=
  { run with shake := run.shake * Rules.shakeDecay, speed := run.speed + dt * Rules.speedRamp }

/-- A frame without a restart. -/
def advance [Trig α] (run : Run α) (tempo dt : α) (pressed : List Direction) : Frame α :=
  let passed := dt * pace run.death
  let later := { run with elapsed := run.elapsed + passed }
  match run.death with
  | some death =>
      { run := later.advanceDying death dt, passed, commands := [], notices := [] }
  | none =>
      let turned := later.turnShield pressed
      let s := settle tempo turned turned.live
      { run := s.run.ease dt, passed, commands := s.commands, notices := s.notices }

/-- Starting over: a fresh run, with the song from its beginning. -/
def restart (chart : Chart α) : Run α × List (Command α) × RunNotice α :=
  let fresh := Run.ofChart chart
  (fresh, stop ++ start, .restarted fresh.live.length)

/-- A frame of a run through a chart, lasting `dt` real seconds. -/
def frame [Trig α] (run : Run α) (chart : Chart α) (dt : α) (presses : Presses) : Frame α :=
  let f := run.advance chart.tempo dt presses.sides
  if presses.restart then
    let (fresh, commands, notice) := restart chart
    { f with
      run := fresh
      commands := f.commands ++ commands
      notices := f.notices ++ [notice] }
  else f

end Run

end BeatShield
