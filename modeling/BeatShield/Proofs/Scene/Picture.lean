import BeatShield.Proofs.Checked
import BeatShield.Proofs.Journal
import BeatShield.Proofs.Number.Whole
import BeatShield.Proofs.Run.Clock
import BeatShield.Scene.Run

/-! # Picture — what can keep a run from being drawn

    A picture stops at a colour component out of range, at an infinite
    angle, and at a musical position that is no number.

      * Within the bounds of `Particles.Bounded` all particles can be
        drawn, and so can the overlay once the time since death is
        bounded (`faded_eq_ok`, `overlayOpacity_eq_ok`).
      * The sides have finite angles, so projectiles and the shield can be
        drawn wherever they are.
      * What is left is the label of the position (`ofRun_eq_labelled`): the
        picture is drawn to its end if there is one, and else stops with
        what keeps it from being there. -/

namespace BeatShield

open Checked Double

/-! ## Colours -/

namespace Colour

/-- What fits a component is taken as it is. -/
theorem component_eq_ok {n : Int} (hlow : 0 ≤ n) (hhigh : n ≤ 255) :
    component n = .ok n.toNat := if_pos ⟨hlow, hhigh⟩

/-- What fits a component is not cut off by the word. -/
theorem wordComponent_eq_ok {n : Int} (hlow : 0 ≤ n) (hhigh : n ≤ 255) :
    wordComponent n = .ok n.toNat := by
  have hword : (twoTo 64 : Int) = 18446744073709551616 := rfl
  have hhalf : (twoTo 32 : Int) = 4294967296 := rfl
  unfold wordComponent
  rw [hword, hhalf, if_pos ⟨hlow, by omega⟩, Int.emod_eq_of_lt hlow (by omega)]
  exact component_eq_ok hlow hhigh

/-- A particle between opaque and faded has a colour. -/
theorem faded_eq_ok {alpha : Float} (h : Within 0.0 1.0 alpha) :
    ∃ c : Nat, c ≤ 255 ∧ faded alpha = .ok ⟨c, c, c, 255⟩ := by
  have hwhite : Within 0.0 255.0 255.0 := by decide +kernel
  have hgrey : Within 0.0 255.0 (255.0 * alpha) := hwhite.part h hwhite.encloses.1
  obtain ⟨k, hk, hlow, hhigh⟩ :=
    truncate_within hgrey (n := 255) (eq_ok_of_toOption (by decide +kernel))
  refine ⟨k.toNat, by omega, ?_⟩
  have hwhole : whole (255.0 * alpha) = .ok k := by rw [whole, hk]; rfl
  unfold faded
  rw [hwhole]
  show component k >>= _ = _
  rw [component_eq_ok hlow hhigh]
  rfl

/-- The time since death, cut off at one second. -/
theorem within_atMost {death latest : Float} (h : Within 0.0 latest death) :
    Within 0.0 1.0 (Scalar.atMost death Rules.deathRamp) := by
  show Within 0.0 1.0 (if 1.0 < death then 1.0 else death)
  by_cases hlate : 1.0 < death
  · rw [if_pos hlate]
    exact .one
  · rw [if_neg hlate]
    have hvalue : ¬ value 1.0 < value death := fun hlt =>
      hlate ((lt_iff_value rfl h.isFinite).mpr hlt)
    exact ⟨rfl, rfl, h.low, (le_iff_value h.isFinite rfl).mpr (not_lt.mp hvalue)⟩

/-- What is left of a part counts for nothing. -/
theorem within_rest {part : Float} (h : Within 0.0 1.0 part) :
    Within 0.0 0.0 (0.0 * (1.0 - part)) := by
  have hzero : Within 0.0 0.0 0.0 := .self rfl
  exact hzero.part h.rest hzero

/-- The overlay has an opacity, and it is at most 160. -/
theorem overlayOpacity_eq_ok {death latest : Float} (h : Within 0.0 latest death) :
    ∃ c : Nat, c ≤ 160 ∧ overlayOpacity death = .ok c := by
  have hmost : Within 0.0 160.0 160.0 := by decide +kernel
  have ha := within_atMost h
  have hsecond : Within 0.0 1.0 (1.0 * Scalar.atMost death Rules.deathRamp) :=
    Within.one.part ha .zero
  have hsum : Within 0.0 1.0 (0.0 * (1.0 - Scalar.atMost death Rules.deathRamp)
      + 1.0 * Scalar.atMost death Rules.deathRamp) :=
    (within_rest ha).add hsecond (by decide +kernel)
  obtain ⟨t, ht⟩ : ∃ t, t = (0.0 * (1.0 - Scalar.atMost death Rules.deathRamp)
      + 1.0 * Scalar.atMost death Rules.deathRamp) / Rules.deathRamp := ⟨_, rfl⟩
  have hpart : Within 0.0 1.0 t := by
    rw [ht]
    exact hsum.div 1.0 rfl (by decide +kernel) rfl (by decide +kernel) (by decide +kernel)
  have hsquare : Within 0.0 1.0 (t * t) := hpart.part hpart .zero
  have hdark : Within 0.0 160.0 (160.0 * (t * t)) := hmost.part hsquare hmost.encloses.1
  have hopacity : Within 0.0 160.0 (160.0 * (t * t) + 0.0 * (1.0 - t * t)) :=
    hdark.add (within_rest hsquare) (by decide +kernel)
  obtain ⟨k, hk, hlow, hhigh⟩ :=
    truncate_within hopacity (n := 160) (eq_ok_of_toOption (by decide +kernel))
  refine ⟨k.toNat, by omega, ?_⟩
  have hwhole : whole (160.0 * (t * t) + 0.0 * (1.0 - t * t)) = .ok k := by rw [whole, hk]; rfl
  have hword : wordComponent k = .ok k.toNat := wordComponent_eq_ok hlow (by omega)
  unfold overlayOpacity
  simp only [← ht]
  rw [hwhole]
  exact hword

end Colour

/-! ## Shapes -/

namespace Shape

/-- Finite angles have a direction. -/
theorem checkAngle_of_finite {angle : Float} (h : angle.isFinite) :
    checkAngle angle = .ok angle := by
  have hfinite : angle.toModel.unpack.isFinite := h
  have hinf : angle.isInf = false := by
    show angle.toModel.unpack.isInf = false
    cases hu : angle.toModel.unpack <;> rw [hu] at hfinite
    case infinity | notANumber => exact nomatch hfinite
    case zero | finite => rfl
  rw [checkAngle, hinf]
  rfl

/-- A rectangle that stands across a side can be drawn anywhere. -/
theorem exists_rectangle (center : Vec Float) (side : Direction) (length width : Float) :
    ∃ corners, rectangle center side.angle length width = .ok corners := by
  have hangle : (side.angle : Float).isFinite := by cases side <;> rfl
  unfold rectangle
  rw [checkAngle_of_finite hangle]
  exact ⟨_, rfl⟩

/-- A square that is turned by a bounded angle can be drawn. -/
theorem exists_square (center place : Vec Float) {rotation : Float} (size : Float)
    (h : Within (-Particles.farthest) Particles.farthest rotation) :
    ∃ corners, square center place rotation size = .ok corners := by
  have hcorner : ∀ quarter ∈ [0.0, 1.0, 2.0, 3.0],
      ∃ corner, squareCorner center place rotation size quarter = .ok corner := by
    intro quarter hquarter
    have hquarter : Within 0.0 3.0 quarter := by
      simp only [List.mem_cons, List.not_mem_nil, or_false] at hquarter
      rcases hquarter with rfl | rfl | rfl | rfl <;> decide +kernel
    have hpi : Within 0.0 4.0 (Trig.pi : Float) := by decide +kernel
    -- the corners stand at quarter turns, which add little to the angle
    have heighth : Within 0.0 1.0 (Trig.pi / 4.0 : Float) := by decide +kernel
    have hturn : Within 0.0 12.0 (quarter * Trig.pi) := hquarter.mul hpi (by decide +kernel)
    have hhalf : Within 0.0 6.0 (quarter * Trig.pi / 2.0) :=
      hturn.div 2.0 rfl (by decide +kernel) rfl (by decide +kernel) (by decide +kernel)
    have hstart : Within (-Particles.farthest) Particles.farthest (rotation + Trig.pi / 4.0) :=
      h.add heighth (by decide +kernel)
    have hangle : Within (-Particles.farthest) (2.0 * Particles.farthest)
        (rotation + Trig.pi / 4.0 + quarter * Trig.pi / 2.0) := hstart.add hhalf (by decide +kernel)
    unfold squareCorner
    rw [checkAngle_of_finite hangle.isFinite]
    exact ⟨_, rfl⟩
  exact exists_mapM_eq_ok hcorner

end Shape

/-! ## The parts of a picture -/

namespace Scene

open Journal

/-- A polygon is drawn as soon as its corners are there. -/
theorem succeeds_polygon {r : Except NumberError (List (Vec Float))} (colour : Colour)
    (h : ∃ corners, r = .ok corners) :
    (number r >>= fun corners => Journal.write (.polygon colour corners)).Succeeds := by
  obtain ⟨corners, rfl⟩ := h
  exact succeeds_bind.mpr ⟨corners, rfl, succeeds_write _⟩

/-- A particle can be drawn wherever it is, if its angle and its fading are
    bounded. -/
theorem succeeds_particle (origin place : Vec Float) {rotation alpha : Float} (size : Float)
    (hrotation : Within (-Particles.farthest) Particles.farthest rotation)
    (halpha : Within 0.0 1.0 alpha) :
    (particle origin ((place, rotation), (size, alpha))).Succeeds := by
  obtain ⟨c, -, hcolour⟩ := Colour.faded_eq_ok halpha
  exact succeeds_bind.mpr ⟨_, hcolour,
    succeeds_polygon _ (Shape.exists_square origin place size hrotation)⟩

/-- So can all particles within bounds. -/
theorem succeeds_particles (origin : Vec Float) {p : Particles Float} (h : p.Bounded) :
    (particles origin p).Succeeds := by
  refine Succeeds.forM fun row hrow => ?_
  obtain ⟨⟨place, rotation⟩, size, alpha⟩ := row
  obtain ⟨hturned, hfaded⟩ := List.of_mem_zip hrow
  exact succeeds_particle origin place size (h.rotations rotation (List.of_mem_zip hturned).2)
    (h.alphas alpha (List.of_mem_zip hfaded).2)

/-- Projectiles can be drawn wherever they are. -/
theorem succeeds_projectile (origin : Vec Float) (chart : Chart Float) (run : Run Float)
    (event : Event Float) : (projectile origin chart run event).Succeeds :=
  succeeds_polygon _ (Shape.exists_rectangle _ event.side 8.0 8.0)

/-- So can the shield, up or not. -/
theorem succeeds_shield (origin : Vec Float) (side : Option Direction) :
    (shield origin side).Succeeds := by
  cases side with
  | none => exact ⟨(), rfl⟩
  | some side => exact succeeds_polygon _ (Shape.exists_rectangle _ side 24.0 4.0)

/-- The darkness can be drawn as long as the time since death is bounded. -/
theorem succeeds_overlay (screen : Screen) {run : Run Float} (h : run.Timed) :
    (overlay screen run.death).Succeeds := by
  cases hd : run.death with
  | none => exact ⟨(), rfl⟩
  | some death =>
      obtain ⟨c, -, hopacity⟩ := Colour.overlayOpacity_eq_ok (h.death death hd)
      exact succeeds_bind.mpr ⟨c, hopacity, (), rfl⟩

/-! ## The picture of a run -/

/-- The position can be shown as long as it is finite. -/
theorem exists_label {run : Run Float} {tempo : Float} :
    (∃ text, run.label tempo = .ok text) ↔
      (run.elapsed * Tempo.beatRate tempo * 4.0).isFinite := by
  constructor
  · rintro ⟨text, h⟩
    by_contra hfinite
    obtain ⟨e, he⟩ := truncate_of_not_finite hfinite
    obtain ⟨offset, hoffset, -⟩ := map_eq_ok.mp h
    obtain ⟨fourths, hfourths, -⟩ := bind_eq_ok.mp hoffset
    rw [he] at hfourths
    exact nomatch hfourths
  · intro hfinite
    obtain ⟨n, hn⟩ := truncate_of_finite hfinite
    exact ⟨_, map_eq_ok.mpr ⟨_, bind_eq_ok.mpr ⟨n, hn, rfl⟩, rfl⟩⟩

/-- The picture of a run up to its score. -/
def unlabelled (screen : Screen) (chart : Chart Float) (run : Run Float)
    (sparks : Particles Float) (origin : Vec Float) : Drawing Unit := do
  Journal.write (.fill .screen .background)
  particles origin sparks
  run.live.forM (projectile origin chart run)
  Journal.write (.circle .heart origin 10)
  shield origin run.shield
  overlay screen run.death
  Journal.write (caption ("Score: " ++ Decimal.integerText run.score) 15 15)

/-- The end of the picture: the label of the position, and the flip. -/
def labelled (screen : Screen) (tempo : Float) (run : Run Float) (rest : Draws Float) :
    Drawing (Draws Float) := do
  let label ← number (run.label tempo)
  Journal.write (caption label ((screen.width : Int) - 200) 15)
  Journal.write .flip
  return rest

/-- Within bounds nothing stops the picture of a run before its label. -/
theorem succeeds_unlabelled (screen : Screen) (chart : Chart Float) {run : Run Float}
    {sparks : Particles Float} (origin : Vec Float) (hrun : run.Timed)
    (hsparks : sparks.Bounded) : (unlabelled screen chart run sparks origin).Succeeds := by
  have hprojectiles : (run.live.forM (projectile origin chart run)).Succeeds :=
    Succeeds.forM fun event _ => succeeds_projectile origin chart run event
  unfold unlabelled
  rw [succeeds_then (succeeds_write _), succeeds_then (succeeds_particles origin hsparks)]
  rw [succeeds_then hprojectiles, succeeds_then (succeeds_write _)]
  rw [succeeds_then (succeeds_shield origin _), succeeds_then (succeeds_overlay screen hrun)]
  exact succeeds_write _

/-- So the picture of a run comes to its label, and ends as that does. -/
theorem ofRun_eq_labelled (screen : Screen) (chart : Chart Float) {run : Run Float}
    {sparks : Particles Float} (draws : Draws Float) (hrun : run.Timed) (hsparks : sparks.Bounded) :
    ∃ front rest, ofRun screen chart run sparks draws
      = ⟨front ++ (labelled screen chart.tempo run rest).entries,
          (labelled screen chart.tempo run rest).result⟩ := by
  let shaken := Camera.displacement (center screen) run.shake draws
  let origin := (center screen).plus shaken.1
  have hparts : ofRun screen chart run sparks draws
      = unlabelled screen chart run sparks origin >>= fun _ =>
          labelled screen chart.tempo run shaken.2 := by
    simp only [unlabelled, bind_assoc]
    rfl
  refine ⟨(unlabelled screen chart run sparks origin).entries, shaken.2, ?_⟩
  rw [hparts]
  exact then_of_succeeds (succeeds_unlabelled screen chart origin hrun hsparks) _

/-- A run with a label is drawn to the end, and the label is the last thing
    in its picture. -/
theorem ofRun_of_label (screen : Screen) (chart : Chart Float) {run : Run Float}
    {sparks : Particles Float} (draws : Draws Float) (hrun : run.Timed) (hsparks : sparks.Bounded)
    {label : String} (h : run.label chart.tempo = .ok label) :
    ∃ front rest, ofRun screen chart run sparks draws
      = ⟨front ++ [caption label ((screen.width : Int) - 200) 15, .flip], .ok rest⟩ := by
  obtain ⟨front, rest, hpicture⟩ := ofRun_eq_labelled screen chart draws hrun hsparks
  refine ⟨front, rest, ?_⟩
  rw [hpicture, labelled, h]
  rfl

/-- What keeps a run from having a label stops its picture. -/
theorem ofRun_of_no_label (screen : Screen) (chart : Chart Float) {run : Run Float}
    {sparks : Particles Float} (draws : Draws Float) (hrun : run.Timed) (hsparks : sparks.Bounded)
    {cause : NumberError} (h : run.label chart.tempo = .error cause) :
    (ofRun screen chart run sparks draws).result = .error (.number cause) := by
  obtain ⟨front, rest, hpicture⟩ := ofRun_eq_labelled screen chart draws hrun hsparks
  rw [hpicture, labelled, h]
  rfl

/-- A run within bounds can be drawn exactly if its position is finite. -/
theorem ofRun_succeeds_iff (screen : Screen) (chart : Chart Float) {run : Run Float}
    {sparks : Particles Float} (draws : Draws Float) (hrun : run.Timed) (hsparks : sparks.Bounded) :
    (ofRun screen chart run sparks draws).Succeeds ↔
      (run.elapsed * Tempo.beatRate chart.tempo * 4.0).isFinite := by
  rw [← exists_label]
  cases hlabel : run.label chart.tempo with
  | ok label =>
      obtain ⟨front, rest, hpicture⟩ := ofRun_of_label screen chart draws hrun hsparks hlabel
      exact ⟨fun _ => ⟨label, rfl⟩, fun _ => ⟨rest, congrArg Journal.result hpicture⟩⟩
  | error cause =>
      have hstopped := ofRun_of_no_label screen chart draws hrun hsparks hlabel
      constructor
      · rintro ⟨rest, hrest⟩
        rw [hstopped] at hrest
        exact nomatch hrest
      · rintro ⟨label, h⟩
        exact nomatch h

end Scene

end BeatShield
