import BeatShield.Number.Binary
import BeatShield.Scene.Basic

/-! # Shape — rotated rectangles and squares -/

namespace BeatShield.Shape

/-- An angle that has a direction: any but an infinite one. -/
def checkAngle (angle : Float) : Except NumberError Float :=
  if angle.isInf then .error .infiniteAngle else .ok angle

/-- The corners of a rectangle whose long side stands across an angle. -/
def rectangle (center : Vec Float) (angle length width : Float) :
    Except NumberError (List (Vec Float)) := do
  let angle ← checkAngle angle
  let tx := -Float.sin angle
  let ty := Float.cos angle
  let nx := Float.cos angle
  let ny := Float.sin angle
  let hl := length / 2.0
  let hw := width / 2.0
  return [
    { x := center.x + tx * hl + nx * hw, y := center.y + ty * hl + ny * hw },
    { x := center.x - tx * hl + nx * hw, y := center.y - ty * hl + ny * hw },
    { x := center.x - tx * hl - nx * hw, y := center.y - ty * hl - ny * hw },
    { x := center.x + tx * hl - nx * hw, y := center.y + ty * hl - ny * hw }]

/-- A corner of a square, `quarter` quarter turns after the first. -/
def squareCorner (center place : Vec Float) (rotation size quarter : Float) :
    Except NumberError (Vec Float) := do
  let angle ← checkAngle (rotation + Trig.pi / 4.0 + quarter * Trig.pi / 2.0)
  let half := size / 2.0
  return {
    x := center.x + place.x + Float.cos angle * half * Float.sqrt 2.0
    y := center.y + place.y + Float.sin angle * half * Float.sqrt 2.0 }

/-- The corners of a square that is turned by an angle. -/
def square (center place : Vec Float) (rotation size : Float) :
    Except NumberError (List (Vec Float)) :=
  [0.0, 1.0, 2.0, 3.0].mapM (squareCorner center place rotation size)

end BeatShield.Shape
