import BeatShield.Chart.Basic
import BeatShield.FileTree.Basic
import BeatShield.Journal
import BeatShield.Options.Basic
import BeatShield.Run.Frame

/-! # Entry — what a game leaves in its journal

    A game reports to a log, makes and plays sounds, and shows pictures.
    All of this is written into one journal, in the order in which it
    happens.

      * `Notice` is a line of the log: a cause, worded by one function.
      * `Fault` is what can stop an activity.  Some faults are reported on
        the menu and the others end the game. -/

namespace BeatShield

/-! ## Faults -/

/-- The sorts of failure that making a sound has. -/
inductive SoundFault where
  /-- The sound device or decoder refuses. -/
  | device
  /-- The file cannot be used. -/
  | system
  /-- The arguments make no sense. -/
  | value
  deriving DecidableEq, Repr

/-- A sound that cannot be made. -/
structure SoundError where
  fault : SoundFault
  text : String
  deriving DecidableEq, Repr

/-- What can stop an activity of the game. -/
inductive Fault where
  | chart (cause : ChartError Float)
  | file (cause : FileError)
  /-- A chart file that is not UTF-8. -/
  | encoding
  | sound (cause : SoundError)
  | number (cause : NumberError)
  /-- A selection beyond the levels. -/
  | selection
  /-- The option of the songs folder is empty. -/
  | noSongs
  /-- The arguments of the program end it before it starts. -/
  | exit (code : Nat)

/-- The wording of a fault. -/
def Fault.message : Fault → String
  | .chart cause => cause.message
  | .file cause => cause.message
  | .encoding => "the chart is not valid UTF-8"
  | .sound cause => cause.text
  | .number cause => cause.message
  | .selection => "list index out of range"
  | .noSongs => "expected str, bytes or os.PathLike object, not list"
  | .exit code => code.repr

/-! ## The log -/

/-- How serious a line of the log is. -/
inductive Severity where
  | info
  | warning
  | error
  deriving DecidableEq, Repr

/-- The name of a severity. -/
def Severity.name : Severity → String
  | .info => "INFO"
  | .warning => "WARNING"
  | .error => "ERROR"

/-- A line of the log. -/
inductive Notice where
  | songsMissing (songs : Path)
  | levelSelected (name : String)
  | chartLoaded (file : String) (events : Nat) (tempo : Float)
  | songLoaded (file : String)
  | levelStarted (name : String)
  | run (notice : RunNotice Float)
  /-- A level whose chart does not compile. -/
  | chartFailed (name : String) (cause : Fault)
  /-- A level with a file that cannot be used. -/
  | levelFailed (name : String) (cause : Fault)
  | levelLeft (name : String) (score : Int)

namespace Notice

/-- How serious a notice is. -/
def severity : Notice → Severity
  | .songsMissing _ => .warning
  | .chartFailed _ _ | .levelFailed _ _ => .error
  | _ => .info

/-- The wording of a notice. -/
def message : Notice → String
  | .songsMissing songs => "Songs directory " ++ songs.text ++ " does not exist"
  | .levelSelected name => "Selected level " ++ name
  | .chartLoaded file events tempo =>
      "Loaded chart " ++ file ++ ": " ++ events.repr ++ " events at "
        ++ Decimal.text tempo ++ " bpm"
  | .songLoaded file => "Loaded song " ++ file
  | .levelStarted name => "Starting level " ++ name
  | .run (.hit side elapsed score) =>
      "Hit by " ++ side.name ++ " projectile at " ++ Decimal.places 3 elapsed
        ++ "s, score " ++ Decimal.integerText score
  | .run (.restarted events) => "Restarting run with " ++ events.repr ++ " events"
  | .chartFailed name cause =>
      "Chart for " ++ name ++ " failed to load: " ++ cause.message
  | .levelFailed name cause => "Level " ++ name ++ " failed to load: " ++ cause.message
  | .levelLeft name score =>
      "Left level " ++ name ++ " with score " ++ Decimal.integerText score

/-- A notice as a line of the log. -/
def line (notice : Notice) : String := notice.severity.name ++ " " ++ notice.message

end Notice

/-! ## The journal of a game -/

/-- What happens to a sound file. -/
inductive SoundAct where
  | load (file : String)
  | play (file : String)
  | stop (file : String)
  deriving DecidableEq, Repr

/-- How the log is kept. -/
structure LogSettings where
  file : Setting String
  /-- Whether debugging lines are kept too. -/
  verbose : Bool
  /-- The log of an earlier game is overwritten. -/
  mode : String := "w"
  /-- Each line starts with the time. -/
  format : String := "%(asctime)s %(message)s"
  deriving DecidableEq, Repr

/-- The least severity that is kept. -/
def LogSettings.level (settings : LogSettings) : String :=
  if settings.verbose then "DEBUG" else "INFO"

/-- One thing that happens in a game. -/
inductive Entry where
  | log (notice : Notice)
  | sound (act : SoundAct)
  /-- The log was opened. -/
  | logOpened (settings : LogSettings)
  /-- The window was opened. -/
  | began
  /-- The window was closed in good order. -/
  | ended
  /-- A picture of a run was shown. -/
  | showedRun (run : Run Float) (particles : Nat) (label : String)
  /-- A picture of the menu was shown. -/
  | showedMenu (names : List String) (selected : Int) (message : Option String)
  /-- The next frame was waited for, at a frame rate. -/
  | waited (rate : Setting Int)
  /-- The inputs came to their end. -/
  | inputsEnded

/-- An activity of the game. -/
abbrev Activity := Journal Entry Fault

namespace Entry

/-- The notices of a journal. -/
def notices (entries : List Entry) : List Notice :=
  entries.filterMap fun
    | .log notice => some notice
    | _ => none

/-- The sound acts of a journal. -/
def soundActs (entries : List Entry) : List SoundAct :=
  entries.filterMap fun
    | .sound act => some act
    | _ => none

end Entry

/-- Reports to the log. -/
def Activity.log (notice : Notice) : Activity Unit := Journal.write (.log notice)

end BeatShield
