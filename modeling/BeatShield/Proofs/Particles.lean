import BeatShield.Particles
import BeatShield.Proofs.Number.Bounds
import BeatShield.Run.Frame

/-! # Particles — what stays within bounds

    Particles come from the bursts of blocks, and these differ in nothing
    but their place and direction.  So all particles live for the same
    time, and their first rotations and their spins are drawn from fixed
    ranges.

      * `Bounded` says that each column keeps to its range.  The rotations
        go on adding up, but only as far as rounding lets them: from 2^55
        on, where doubles are eight apart, a spin is too small to count.
      * A burst and a frame of at most one second keep this
        (`Bounded.spawn`, `Bounded.advance`).
      * The opacity of a particle is then between 0 and 1
        (`Bounded.alphas`). -/

namespace BeatShield

open Double

/-! ## Columns -/

/-- What two columns are joined to comes from a member of each. -/
theorem exists_of_mem_zipWith {α β γ : Type} {f : α → β → γ} {as : List α} {bs : List β} {c : γ}
    (h : c ∈ List.zipWith f as bs) : ∃ a ∈ as, ∃ b ∈ bs, f a b = c := by
  rw [← List.map_uncurry_zip_eq_zipWith] at h
  obtain ⟨⟨a, b⟩, hmem, hc⟩ := List.mem_map.mp h
  obtain ⟨ha, hb⟩ := List.of_mem_zip hmem
  exact ⟨a, ha, b, hb, hc⟩

namespace Particles

theorem mem_of_mem_select {β : Type} {mask : List Bool} {column : List β} {x : β}
    (h : x ∈ select mask column) : x ∈ column := by
  obtain ⟨⟨marked, y⟩, hmem, hx⟩ := List.mem_filterMap.mp h
  cases marked with
  | false => exact nomatch hx
  | true =>
      obtain rfl := Option.some.inj hx
      exact (List.of_mem_zip hmem).2

/-- What a comparison selects has passed it. -/
theorem exists_lt_of_mem_select {xs ys : List Float} {x : Float}
    (h : x ∈ select (List.zipWith (fun a b => decide (a < b)) xs ys) xs) :
    ∃ y ∈ ys, x < y := by
  induction xs generalizing ys with
  | nil => exact nomatch mem_of_mem_select h
  | cons a xs ih =>
      cases ys with
      | nil => exact nomatch h
      | cons b ys =>
          rw [List.zipWith_cons_cons, select, List.zip_cons_cons, List.filterMap_cons] at h
          -- a row is selected by its own comparison, so its partner is at
          -- the same place
          by_cases hlt : a < b
          · simp only [hlt, decide_true, if_true] at h
            rcases List.mem_cons.mp h with rfl | hx
            · exact ⟨b, List.mem_cons_self, hlt⟩
            · obtain ⟨y, hy, hxy⟩ := ih hx
              exact ⟨y, List.mem_cons_of_mem b hy, hxy⟩
          · simp only [hlt, decide_false, Bool.false_eq_true, if_false] at h
            obtain ⟨y, hy, hxy⟩ := ih h
            exact ⟨y, List.mem_cons_of_mem b hy, hxy⟩

end Particles

/-! ## Ranges -/

/-- A number drawn from a range lies between the ends as they are
    computed. -/
theorem Range.within_pick {r : Range Float} {unit lo hi : Float} (hunit : Within 0.0 1.0 unit)
    (hlow : Within r.low r.low r.low)
    (hwidth : Within 0.0 (r.high - r.low) (r.high - r.low))
    (hends : Encloses lo hi (r.low + 0.0) (r.low + (r.high - r.low))) :
    Within lo hi (r.pick unit) :=
  hlow.add (hwidth.part hunit hwidth.encloses.1) hends

/-- Every number that is picked is picked by a unit of the stream. -/
theorem Draws.exists_of_mem_picks {draws : Draws Float} {r : Range Float} {count : Nat} {x : Float}
    (h : x ∈ (draws.picks r count).1) : ∃ n, x = r.pick (draws.source n) := by
  obtain ⟨unit, hunit, rfl⟩ := List.mem_map.mp h
  obtain ⟨i, -, rfl⟩ := List.mem_map.mp hunit
  exact ⟨draws.used + i, rfl⟩

/-- A stream of units. -/
def Draws.Proper (draws : Draws Float) : Prop := ∀ n, Within 0.0 1.0 (draws.source n)

/-! ## Bursts and frames -/

/-- The bursts of the game: all but their place and direction is fixed. -/
structure Explosion.Usual (burst : Explosion Float) : Prop where
  life : burst.life = Rules.explosionLife
  rotation : burst.rotation = { low := 0.0, high := 2.0 * Trig.pi }
  spin : burst.spin = { low := -Trig.pi, high := Trig.pi }

/-- What flies off at a block is a usual burst. -/
theorem Run.explosion_usual (run : Run Float) (tempo : Float) (event : Event Float) :
    (run.explosion tempo event).Usual := ⟨rfl, rfl, rfl⟩

namespace Particles

/-- Beyond this no rotation gets. -/
def farthest : Float := nearestDouble (twoTo 55)

/-- The columns of the particles keep to their ranges. -/
structure Bounded (p : Particles Float) : Prop where
  lives : ∀ life ∈ p.lives, Within 0.0 Rules.explosionLife life
  lifeTimes : ∀ lifeTime ∈ p.lifeTimes, lifeTime = Rules.explosionLife
  rotations : ∀ rotation ∈ p.rotations, Within (-farthest) farthest rotation
  spins : ∀ spin ∈ p.spins, Within (-4.0) 4.0 spin

theorem bounded_empty : Bounded empty := ⟨nofun, nofun, nofun, nofun⟩

variable {p : Particles Float}

/-- A usual burst keeps them within bounds. -/
theorem Bounded.spawn (h : Bounded p) {burst : Explosion Float} (hburst : burst.Usual)
    {draws : Draws Float} (hdraws : draws.Proper) : Bounded (p.spawn burst draws).1 where
  lives := by
    intro life hlife
    -- in every column the old particles stand first, and the new ones come
    -- from the burst
    rcases List.mem_append.mp hlife with hold | hnew
    · exact h.lives life hold
    · obtain rfl := List.eq_of_mem_replicate hnew
      decide +kernel
  lifeTimes := by
    intro lifeTime hlifeTime
    rcases List.mem_append.mp hlifeTime with hold | hnew
    · exact h.lifeTimes lifeTime hold
    · rw [List.eq_of_mem_replicate hnew, hburst.life]
  rotations := by
    intro rotation hrotation
    rcases List.mem_append.mp hrotation with hold | hnew
    · exact h.rotations rotation hold
    · obtain ⟨n, rfl⟩ := Draws.exists_of_mem_picks hnew
      rw [hburst.rotation]
      exact Range.within_pick (hdraws n) (by decide +kernel) (by decide +kernel)
        (by decide +kernel)
  spins := by
    intro spin hspin
    rcases List.mem_append.mp hspin with hold | hnew
    · exact h.spins spin hold
    · obtain ⟨n, rfl⟩ := Draws.exists_of_mem_picks hnew
      rw [hburst.spin]
      exact Range.within_pick (hdraws n) (by decide +kernel) (by decide +kernel)
        (by decide +kernel)

/-- So does a frame of at most one second. -/
theorem Bounded.advance (h : Bounded p) {dt : Float} (hdt : Within 0.0 1.0 dt) :
    Bounded (p.advance dt) where
  lives := by
    intro life hlife
    obtain ⟨lifeTime, hmem, hlt⟩ := exists_lt_of_mem_select hlife
    obtain ⟨old, hold, rfl⟩ := List.mem_map.mp (mem_of_mem_select hlife)
    obtain rfl := h.lifeTimes lifeTime hmem
    have hsum : Within 0.0 6.0 (old + dt) := (h.lives old hold).add hdt (by decide +kernel)
    exact ⟨rfl, rfl, hsum.low, Double.le_of_lt hlt⟩
  lifeTimes := fun lifeTime hmem => h.lifeTimes lifeTime (mem_of_mem_select hmem)
  rotations := by
    intro rotation hrotation
    obtain ⟨old, hold, spin, hspin, rfl⟩ := exists_of_mem_zipWith (mem_of_mem_select hrotation)
    have hturn : Within (-4.0) 4.0 (spin * dt) :=
      (h.spins spin hspin).part hdt (by decide +kernel)
    -- farthest plus four is rounded to farthest again
    exact (h.rotations old hold).add hturn (by decide +kernel)
  spins := fun spin hmem => h.spins spin (mem_of_mem_select hmem)

/-- So no particle is brighter than white or darker than black. -/
theorem Bounded.alphas (h : Bounded p) : ∀ alpha ∈ p.alphas, Within 0.0 1.0 alpha := by
  intro alpha halpha
  obtain ⟨life, hlife, lifeTime, hlifeTime, rfl⟩ := exists_of_mem_zipWith halpha
  obtain rfl := h.lifeTimes lifeTime hlifeTime
  have hfaded : Within 0.0 1.0 (life / Rules.explosionLife) :=
    (h.lives life hlife).div Rules.explosionLife rfl (by decide +kernel) rfl (by decide +kernel)
      (by decide +kernel)
  exact hfaded.rest

end Particles

end BeatShield
