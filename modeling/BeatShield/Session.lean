import BeatShield.Level
import BeatShield.Menu
import BeatShield.Number.Binary
import BeatShield.Particles
import BeatShield.SoundBank

/-! # Session — a level being played

    A session joins a run with its sounds and particles.

      * A chart file is UTF-8.  Its line ends are read as line feeds, which
        makes no difference to the atoms of the chart.
      * Each frame the run moves first.  Its commands go to the sounds,
        then to the particles, and the particles then live on for as long
        as the frame lasted in the game.  A restart leaves no particles.
      * Opening a level reads its chart and makes its sounds.  If that
        fails for a reason that lies with the level, the menu shows the
        reason; any other failure ends the game. -/

namespace BeatShield

/-! ## Chart files -/

namespace Chart

/-- The text of a chart file. -/
def decode (content : ByteArray) : Except Fault (List Char) :=
  match String.fromUTF8? content with
  | none => .error .encoding
  | some s => .ok (Text.joinLines s.toList)

/-- The chart that the bytes of a file spell. -/
def ofBytes (content : ByteArray) : Except Fault (Chart Float) := do
  let source ← decode content
  (Chart.ofText source).mapError .chart

/-- Reads the chart at a path, which the log shows as `shown`. -/
def load (files : Files) (path : Path) (shown : String) : Activity (Chart Float) := do
  let content ← Journal.ofExcept ((files.readFile path).mapError .file)
  let chart ← Journal.ofExcept (ofBytes content)
  Activity.log (.chartLoaded shown chart.events.length chart.tempo)
  return chart

end Chart

/-! ## Levels -/

/-- What the game finds around it: files, and a way to make sounds. -/
structure Host where
  files : Files
  speakers : Speakers

/-- A level being played. -/
structure Session where
  level : Level
  chart : Chart Float
  run : Run Float
  sounds : SoundBank
  particles : Particles Float
  draws : Draws Float

/-- The line of the log for a level that cannot be opened, if the reason
    lies with the level: its chart does not compile, or one of its files
    cannot be used. -/
def Fault.report? (name : String) : Fault → Option Notice
  | .chart (.number _) => none
  | .chart cause => some (.chartFailed name (.chart cause))
  | .file cause =>
      if cause.fault = .nulCharacter then none else some (.levelFailed name (.file cause))
  | .sound cause =>
      if cause.fault = .value then none else some (.levelFailed name (.sound cause))
  | _ => none

namespace Session

/-- Particles with the bursts that commands ask for. -/
def spawnAll (particles : Particles Float) (draws : Draws Float) :
    List (Command Float) → Particles Float × Draws Float
  | [] => (particles, draws)
  | .explode burst :: rest =>
      let (particles, draws) := particles.spawn burst draws
      spawnAll particles draws rest
  | _ :: rest => spawnAll particles draws rest

/-- Carries out commands: the sounds first, then the particles. -/
def apply (session : Session) (commands : List (Command Float)) : Activity Session := do
  Journal.writeAll ((session.sounds.acts commands).map .sound)
  let (particles, draws) := spawnAll session.particles session.draws commands
  return { session with particles, draws }

/-- Reads the level's chart and makes its sounds. -/
def load (host : Host) (level : Level) (draws : Draws Float) : Activity Session := do
  let chart ← Chart.load host.files level.chartPath level.chartPath.text
  let sounds ← SoundBank.load host.speakers
    { song := level.songPath.text, kick := SoundBank.kickFile, death := SoundBank.deathFile }
  return { level, chart, run := Run.ofChart chart, sounds, particles := .empty, draws }

/-- Starts the song. -/
def start (session : Session) : Activity Session := do
  Activity.log (.levelStarted session.level.name)
  session.apply Run.start

/-- Stops the song. -/
def stop (session : Session) : Activity Session := session.apply Run.stop

/-- One frame of the session. -/
def frame (session : Session) (dt : Float) (presses : Presses) : Activity Session := do
  let f := session.run.frame session.chart dt presses
  Journal.writeAll (f.notices.map fun notice => .log (.run notice))
  let session ← { session with run := f.run }.apply f.commands
  let particles := session.particles.advance f.passed
  return { session with particles := if presses.restart then .empty else particles }

/-- Opens a level from the menu.  Either a started session results and the
    menu has no message, or none does and the message says why. -/
def enter (host : Host) (level : Level) (menu : Menu) (draws : Draws Float) :
    Activity (Menu × Option Session) := do
  match ← (load host level draws).attempt with
  | .ok session =>
      let session ← session.start
      return ({ menu with message := none }, some session)
  | .error fault =>
      match fault.report? level.name with
      | some notice =>
          Activity.log notice
          return ({ menu with message := some (level.name ++ ": " ++ fault.message) }, none)
      | none => Journal.fail fault

end Session

end BeatShield
