import BeatShield.Particles
import BeatShield.Run.Frame
import BeatShield.Scene.Shape

/-! # The scene of a run

    From back to front: the particles, the live projectiles, the heart,
    the shield, the darkness after a hit, and the texts.  All but the
    texts are displaced by the shaking camera. -/

namespace BeatShield.Scene

/-- The middle of the screen, which is also its half size. -/
def center (screen : Screen) : Vec Float :=
  { x := Float.ofNat screen.width / 2.0, y := Float.ofNat screen.height / 2.0 }

/-- A number that may be missing stops the picture. -/
def number {β : Type} (r : Except NumberError β) : Drawing β :=
  .ofExcept (r.mapError .number)

/-- One particle: a square, faded towards black. -/
def particle (origin : Vec Float) (row : (Vec Float × Float) × (Float × Float)) :
    Drawing Unit := do
  let ((position, rotation), (size, alpha)) := row
  let colour ← Journal.ofExcept (Colour.faded alpha)
  let corners ← number (Shape.square origin position rotation size)
  Journal.write (.polygon colour corners)

/-- All particles. -/
def particles (origin : Vec Float) (p : Particles Float) : Drawing Unit :=
  ((p.positions.zip p.rotations).zip (p.sizes.zip p.alphas)).forM (particle origin)

/-- One live projectile. -/
def projectile (origin : Vec Float) (chart : Chart Float) (run : Run Float)
    (event : Event Float) : Drawing Unit := do
  let corners ← number <| Shape.rectangle
    (origin.plus (run.position chart.tempo event)) event.side.angle 8.0 8.0
  Journal.write (.polygon .projectile corners)

/-- The shield, if it is up. -/
def shield (origin : Vec Float) : Option Direction → Drawing Unit
  | none => pure ()
  | some side => do
      let corners ← number <| Shape.rectangle
        (origin.plus (Vec.polar side.angle Rules.shieldDrawRadius)) side.angle 24.0 4.0
      Journal.write (.polygon .shield corners)

/-- The darkness after a hit. -/
def overlay (screen : Screen) : Option Float → Drawing Unit
  | none => pure ()
  | some death => do
      let opacity ← Journal.ofExcept (Colour.overlayOpacity death)
      Journal.writeAll [
        .fill .overlay ⟨0, 0, 0, opacity⟩,
        .blit screen.width screen.height 0 0]

/-- The picture of a run. -/
def ofRun (screen : Screen) (chart : Chart Float) (run : Run Float)
    (sparks : Particles Float) (draws : Draws Float) : Drawing (Draws Float) := do
  let (shake, draws) := Camera.displacement (center screen) run.shake draws
  let origin := (center screen).plus shake
  Journal.write (.fill .screen .background)
  particles origin sparks
  run.live.forM (projectile origin chart run)
  Journal.write (.circle .heart origin 10)
  shield origin run.shield
  overlay screen run.death
  Journal.write (caption ("Score: " ++ Decimal.integerText run.score) 15 15)
  let label ← number (run.label chart.tempo)
  Journal.write (caption label ((screen.width : Int) - 200) 15)
  Journal.write .flip
  return draws

end BeatShield.Scene
