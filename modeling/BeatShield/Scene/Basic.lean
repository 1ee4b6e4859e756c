import BeatShield.Draws
import BeatShield.Journal
import BeatShield.Number.Binary
import BeatShield.Rules

/-! # Scene — pictures as lists of drawing calls

    A picture is the list of calls that draws it.  `Drawing` is such a
    list together with a result; a colour that cannot be formed stops the
    picture, and the calls made before stay.

    Blocks shake the camera: each picture is displaced at random, by at
    most the shake as a fraction of half the screen (`Camera.displacement`). -/

namespace BeatShield

/-- A colour with its opacity, each component from 0 to 255. -/
structure Colour where
  red : Nat
  green : Nat
  blue : Nat
  opacity : Nat := 255
  deriving DecidableEq, Repr

/-- What a call draws on. -/
inductive Canvas where
  | screen
  | overlay
  deriving DecidableEq, Repr

/-- The size of the screen in pixels. -/
structure Screen where
  width : Nat := 800
  height : Nat := 600
  deriving DecidableEq, Repr

/-- A drawing call. -/
inductive Call where
  | caption (text : String)
  | fill (canvas : Canvas) (colour : Colour)
  | polygon (colour : Colour) (corners : List (Vec Float))
  | circle (colour : Colour) (center : Vec Float) (radius : Nat)
  | blit (width height : Nat) (x y : Int)
  | text (size : Nat) (text : String) (colour : Colour) (x y : Int)
  | flip

/-- The ways in which a picture cannot be drawn. -/
inductive DrawError where
  /-- A colour component that is not from 0 to 255. -/
  | colour
  /-- A number that cannot be converted. -/
  | number (cause : NumberError)
  deriving DecidableEq, Repr

/-- The wording of a drawing error. -/
def DrawError.message : DrawError → String
  | .colour => "invalid color argument"
  | .number cause => cause.message

/-- A picture in the making. -/
abbrev Drawing := Journal Call DrawError

namespace Colour

def background : Colour := ⟨0, 0, 0, 255⟩
def projectile : Colour := ⟨255, 80, 80, 255⟩
def heart : Colour := ⟨230, 40, 70, 255⟩
def shield : Colour := ⟨120, 200, 255, 255⟩
def text : Colour := ⟨255, 255, 255, 255⟩
def highlight : Colour := ⟨255, 210, 0, 255⟩

/-- The component that a whole number stands for. -/
def component (n : Int) : Except DrawError Nat :=
  if 0 ≤ n ∧ n ≤ 255 then .ok n.toNat else .error .colour

/-- The component that a machine word stands for: a word has 64 bits, and
    only its lower half counts. -/
def wordComponent (n : Int) : Except DrawError Nat :=
  if 0 ≤ n ∧ n < twoTo 64 then component (n % twoTo 32) else .error .colour

/-- A number without its fraction. -/
def whole {α : Type} [Scalar α] (x : α) : Except DrawError Int :=
  (Scalar.truncate x).mapError .number

/-- The grey of a white particle that has faded towards black. -/
def faded {α : Type} [Scalar α] (alpha : α) : Except DrawError Colour := do
  let c ← component (← whole (255.0 * alpha))
  return ⟨c, c, c, 255⟩

/-- The opacity of the overlay that darkens the screen after a hit.  It
    grows with the square of the time since, up to 160. -/
def overlayOpacity {α : Type} [Scalar α] (death : α) : Except DrawError Nat := do
  let a := Scalar.atMost death Rules.deathRamp
  let t := (0.0 * (1.0 - a) + 1.0 * a) / Rules.deathRamp
  let square := t * t
  wordComponent (← whole (160.0 * square + 0.0 * (1.0 - square)))

end Colour

/-- The displacement of a picture whose half size is given, across first
    and then down. -/
def Camera.displacement {α : Type} [Scalar α] (half : Vec α) (shake : α) (draws : Draws α) :
    Vec α × Draws α :=
  let (across, draws) := draws.pick { low := -shake, high := shake }
  let (down, draws) := draws.pick { low := -shake, high := shake }
  ({ x := across * half.x, y := down * half.y }, draws)

namespace Scene

/-- The size of headings and of the run's texts. -/
def largeText : Nat := 50

/-- The size of the menu's texts. -/
def menuText : Nat := 32

/-- The calls that open the window. -/
def opening : List Call := [.caption "Shield rhythm game"]

/-- A text in the usual size and colour. -/
def caption (text : String) (x y : Int) : Call := .text largeText text .text x y

end Scene

end BeatShield
