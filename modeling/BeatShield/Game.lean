import BeatShield.Options.Basic
import BeatShield.Session

/-! # Game — the menu and the levels, turn by turn

    The game alternates between the menu and a level being played.  In
    each turn the inputs that have come in are read, the game moves on,
    a picture is shown, and the next frame is waited for.

      * `Game.turn` is one turn.
      * `Game.play` follows a finite script of turns.  When the script
        ends the window is closed, so every game ends.
      * `Game.run` is a whole run of the program from its arguments. -/

namespace BeatShield

/-- One turn of a script: the inputs that come in, and the milliseconds
    until the next turn. -/
structure Turn where
  inputs : List Input
  milliseconds : Float

/-- The state of the game between turns. -/
structure Game where
  options : Options
  menu : Menu
  session : Option Session
  /-- The random numbers for the next level. -/
  draws : Draws Float
  /-- The seconds since the previous turn. -/
  frameTime : Float

namespace Game

/-- A turn in the menu.  No game is left once the window is closed. -/
def menuTurn (host : Host) (game : Game) (inputs : List Input) :
    Activity (Option Game) := do
  if inputs.contains .close then return none
  let choice := game.menu.handle inputs
  Journal.writeAll (choice.notices.map .log)
  let (menu, session) ← match ← Journal.ofExcept choice.chosen with
    | none => pure (choice.menu, none)
    | some level => Session.enter host level choice.menu game.draws
  Journal.write (.showedMenu menu.names menu.selected menu.message)
  return some { game with menu, session }

/-- A turn in a level. -/
def levelTurn (host : Host) (game : Game) (session : Session) (inputs : List Input) :
    Activity (Option Game) := do
  let controls := Controls.collect inputs
  if controls.quit then
    let _ ← session.stop
    return none
  let session ← session.frame game.frameTime controls.presses
  let label ← Journal.ofExcept ((session.run.label session.chart.tempo).mapError .number)
  Journal.write (.showedRun session.run session.particles.count label)
  if controls.back then
    let session ← session.stop
    Activity.log (.levelLeft session.level.name session.run.score)
    let menu ← game.menu.refresh host.files
    return some { game with menu, session := none, draws := session.draws }
  else
    return some { game with session := some session }

/-- One turn, up to the wait for the next frame. -/
def turn (host : Host) (game : Game) (inputs : List Input) : Activity (Option Game) :=
  match game.session with
  | none => menuTurn host game inputs
  | some session => levelTurn host game session inputs

/-- Plays a script of turns, and closes the window at its end. -/
def play (host : Host) : Game → List Turn → Activity Unit
  | game, [] => do
      Journal.write .inputsEnded
      let _ ← turn host game [.close]
      return ()
  | game, now :: later => do
      match ← turn host game now.inputs with
      | none => return ()
      | some game =>
          Journal.write (.waited game.options.fps)
          play host { game with frameTime := now.milliseconds / 1000.0 } later

/-- The game before its first turn.  A level that is asked for by name is
    opened at once. -/
def setUp (host : Host) (options : Options) (draws : Draws Float) : Activity Game := do
  let menu ← match options.songs with
    | .given songs => Menu.ofFolder host.files (Path.ofString songs)
    | _ => Journal.fail .noSongs
  let (menu, session) ← match options.level with
    | .given name =>
        if name.isEmpty then pure (menu, none)
        else Session.enter host (Level.named menu.songs name) menu draws
    | _ => pure (menu, none)
  return { options, menu, session, draws, frameTime := 0.0 }

/-- A game with given options. -/
def runWith (host : Host) (options : Options) (draws : Draws Float) (script : List Turn) :
    Activity Unit := do
  Journal.write (.logOpened { file := options.logFile, verbose := options.verbose })
  Journal.write .began
  let game ← setUp host options draws
  play host game script
  Journal.write .ended

/-- A run of the program. -/
def run (host : Host) (arguments : List String) (draws : Draws Float)
    (script : List Turn) : Activity Unit :=
  match Options.read arguments with
  | .error exit => Journal.fail (.exit exit.code)
  | .ok options => runWith host options draws script

end Game

end BeatShield
