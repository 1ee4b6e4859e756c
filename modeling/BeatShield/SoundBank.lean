import BeatShield.Entry

/-! # SoundBank — the sounds of a level

    A level has its own song and shares two effects with all others.  The
    song is made first, then the kick, then the death sound; the first
    that cannot be made is the last that is tried. -/

namespace BeatShield

/-- The error that making a sound of a file ends in, if it fails. -/
abbrev Speakers := String → Option SoundError

/-- The files of a level's sounds. -/
structure SoundBank where
  song : String
  kick : String
  death : String
  deriving DecidableEq, Repr

namespace SoundBank

/-- The usual kick. -/
def kickFile : String := "assets/kick.wav"

/-- The usual death sound. -/
def deathFile : String := "assets/death.wav"

/-- Makes one sound. -/
def make (speakers : Speakers) (file : String) : Activity Unit := do
  Journal.write (.sound (.load file))
  match speakers file with
  | none => pure ()
  | some error => Journal.fail (.sound error)

/-- Makes the sounds of a level. -/
def load (speakers : Speakers) (bank : SoundBank) : Activity SoundBank := do
  make speakers bank.song
  make speakers bank.kick
  make speakers bank.death
  Activity.log (.songLoaded bank.song)
  return bank

/-- The file of a sound. -/
def file (bank : SoundBank) : Sound → String
  | .song => bank.song
  | .kick => bank.kick
  | .death => bank.death

/-- What a command does to the sounds, if anything. -/
def act? {α : Type} (bank : SoundBank) : Command α → Option SoundAct
  | .play sound => some (.play (bank.file sound))
  | .stop sound => some (.stop (bank.file sound))
  | .explode _ => none

/-- What commands do to the sounds, in order. -/
def acts {α : Type} (bank : SoundBank) (commands : List (Command α)) : List SoundAct :=
  commands.filterMap bank.act?

end SoundBank

end BeatShield
