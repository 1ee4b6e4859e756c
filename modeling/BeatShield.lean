import BeatShield.Main
import BeatShield.Scene.Menu
import BeatShield.Scene.Run
import BeatShield.Proofs.Chart.Grammar
import BeatShield.Proofs.Run.Conservation
import BeatShield.Proofs.Run.Death
import BeatShield.Proofs.Game.SongPlays
import BeatShield.Proofs.Chart.Blame
import BeatShield.Proofs.Run.Apart
import BeatShield.Proofs.Session.Opening
import BeatShield.Proofs.Session.Restart
import BeatShield.Proofs.Chart.Written
import BeatShield.Proofs.Run.Arrival
import BeatShield.Proofs.Session.Picture
import BeatShield.Proofs.Menu.Selection
import BeatShield.Proofs.Run.Verdict
import BeatShield.Proofs.Run.Ring
import BeatShield.Proofs.Chart.Layout
import BeatShield.Proofs.Chart.Atom
import BeatShield.Proofs.Timing.Normal
import BeatShield.Proofs.Chart.Arrivals
import BeatShield.Proofs.Run.SlowMotion
import BeatShield.Proofs.Run.Approach
import BeatShield.Proofs.Particles.Rows
import BeatShield.Proofs.Session.Bursts
import BeatShield.Proofs.Run.Shield
import BeatShield.Proofs.Timing.Position
import BeatShield.Proofs.Timing.Label
import BeatShield.Proofs.Menu.Navigation
import BeatShield.Proofs.Session.Trace
import BeatShield.Proofs.Particles.Motion
import BeatShield.Proofs.Particles.Fading
import BeatShield.Proofs.Run.Shake
import BeatShield.Proofs.Menu.Discovery
import BeatShield.Proofs.Game.Shown
