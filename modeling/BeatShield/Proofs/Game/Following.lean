import BeatShield.Game
import BeatShield.Proofs.Journal

/-! # Following — a game in pieces

    A run of the program is an opening, any number of turns, and a rest:
    `Game.reach` is how far it has got after some turns, and `run_append`
    says that the whole run goes on from there.  What is proved about
    every `reach` thus holds between all turns of all runs.

    A game is over (`none`) after a turn in which the window was closed. -/

namespace BeatShield.Game

/-- The opening of a run: the arguments are read, the log and the window
    are opened, and so is a level that is asked for by name. -/
def opening (host : Host) (arguments : List String) (draws : Draws Float) : Activity Game :=
  match Options.read arguments with
  | .error exit => Journal.fail (.exit exit.code)
  | .ok options => do
      Journal.write (.logOpened { file := options.logFile, verbose := options.verbose })
      Journal.write .began
      setUp host options draws

/-- The game after some turns, with the last wait. -/
def follow (host : Host) : Game → List Turn → Activity (Option Game)
  | game, [] => pure (some game)
  | game, now :: later => do
      match ← turn host game now.inputs with
      | none => pure none
      | some game =>
          Journal.write (.waited game.options.fps)
          follow host { game with frameTime := now.milliseconds / 1000.0 } later

/-- How far a run has got after some turns. -/
def reach (host : Host) (arguments : List String) (draws : Draws Float) (turns : List Turn) :
    Activity (Option Game) := do
  let game ← opening host arguments draws
  follow host game turns

/-- The turns that remain of a game, if it is not over. -/
def rest (host : Host) (later : List Turn) : Option Game → Activity Unit
  | none => pure ()
  | some game => play host game later

/-- Playing a script is following its first part, and then playing the rest. -/
theorem play_append (host : Host) (game : Game) (before later : List Turn) :
    play host game (before ++ later) = follow host game before >>= rest host later := by
  induction before generalizing game with
  | nil => rfl
  | cons now before ih =>
      -- both sides take the same turn, and part only in what comes after it
      show (turn host game now.inputs >>= _) = (turn host game now.inputs >>= _) >>= _
      rw [bind_assoc]
      congr 1
      funext next
      cases next with
      | none => rfl
      | some next =>
          show (Journal.write _ >>= _) = (Journal.write _ >>= _) >>= _
          rw [bind_assoc]
          congr 1
          funext _
          exact ih _

/-- A run is its opening, its script and its end. -/
theorem run_eq (host : Host) (arguments : List String) (draws : Draws Float)
    (script : List Turn) :
    run host arguments draws script
      = opening host arguments draws >>= fun game =>
          play host game script >>= fun _ => Journal.write .ended := by
  unfold run opening
  cases Options.read arguments with
  | error exit => rfl
  | ok options =>
      simp only [bind_assoc]
      rfl

/-- A run goes on from wherever it has got. -/
theorem run_append (host : Host) (arguments : List String) (draws : Draws Float)
    (before later : List Turn) :
    run host arguments draws (before ++ later)
      = reach host arguments draws before >>= fun next =>
          rest host later next >>= fun _ => Journal.write .ended := by
  unfold reach
  rw [run_eq, bind_assoc]
  congr 1
  funext game
  rw [play_append, bind_assoc]

/-- A turn that is reached has written its entries behind all that came
    before. -/
theorem turn_isPrefix {host : Host} {arguments : List String} {draws : Draws Float}
    {before : List Turn} {game : Game}
    (hgame : (reach host arguments draws before).result = .ok (some game))
    (now : Turn) (later : List Turn) :
    (reach host arguments draws before).entries ++ (turn host game now.inputs).entries
      <+: (run host arguments draws (before ++ now :: later)).entries := by
  rw [run_append, Journal.bind_of_ok hgame]
  show _ <+: _ ++ (((turn host game now.inputs >>= _) >>= _).entries)
  refine (List.prefix_append_right_inj _).mpr ?_
  exact (Journal.isPrefix_bind _ _).trans (Journal.isPrefix_bind _ _)

end BeatShield.Game
