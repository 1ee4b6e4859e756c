import BeatShield.Proofs.Particles.Rows
import Mathlib.Algebra.Order.BigOperators.Group.List
import Mathlib.Algebra.Order.Field.Rat
import Mathlib.Tactic.Linarith
import Mathlib.Tactic.Ring

/-! # Motion — time may be cut anywhere

    Over the rationals a particle moves along a line and turns at an even
    rate, so where it is depends on the time that has passed and not on how
    many steps that time was made of.  What does happen at every step is that
    the particles whose life is over are taken out.

      * Two steps of one particle are a step of the sum (`later_later`).
      * A life never goes back.  So whoever is alive after the second step
        was alive after the first, and taking out in between takes out
        nobody who would have stayed (`filter_later_later`).
      * Back in columns, two steps of the system are one
        (`advance_advance`), and by induction so are any number of them
        (`foldl_advance`). -/

namespace BeatShield

/-! ## One particle -/

/-- Two ways along one line add up. -/
theorem Vec.plus_scale_scale (place velocity : Vec Rat) (a b : Rat) :
    (place.plus (velocity.scale a)).plus (velocity.scale b)
      = place.plus (velocity.scale (a + b)) := by
  simp only [Vec.plus, Vec.scale, Vec.mk.injEq]
  constructor <;> ring

namespace Particle

/-- A particle does not see how its time is cut up. -/
theorem later_later (q : Particle Rat) (a b : Rat) :
    (q.later a).later b = q.later (a + b) := by
  have hturn : q.rotation + q.spin * a + q.spin * b = q.rotation + q.spin * (a + b) := by ring
  have hlife : q.life + a + b = q.life + (a + b) := by ring
  simp only [later, Vec.plus_scale_scale, hturn, hlife]

/-- Nobody comes back to life. -/
theorem isAlive_of_later {q : Particle Rat} {b : Rat} (hb : 0 ≤ b)
    (h : (q.later b).isAlive = true) : q.isAlive = true := by
  have hafter : q.life + b < q.lifeTime := of_decide_eq_true h
  exact decide_eq_true (by linarith)

/-- Taking out the dead between two steps changes nothing about who is
    there after the second. -/
theorem filter_later_later (rows : List (Particle Rat)) (a : Rat) {b : Rat} (hb : 0 ≤ b) :
    (((rows.map (·.later a)).filter isAlive).map (·.later b)).filter isAlive
      = (rows.map (·.later (a + b))).filter isAlive := by
  have hone : rows.map (·.later (a + b)) = (rows.map (·.later a)).map (·.later b) := by
    rw [List.map_map]
    exact List.map_congr_left fun q _ => (later_later q a b).symm
  rw [hone]
  generalize rows.map (·.later a) = moved
  rw [List.filter_map, List.filter_map, List.filter_filter]
  congr 1
  apply List.filter_congr
  intro q _
  -- being alive afterwards includes being alive before
  rw [Bool.and_eq_left_iff_imp]
  exact isAlive_of_later hb

end Particle

/-! ## All particles -/

namespace Particles

/-- Columns of one length are the columns of their rows. -/
theorem ofRows_rows {α : Type} {p : Particles α} (h : p.Aligned) : ofRows p.rows = p := by
  obtain ⟨positions, velocities, rotations, spins, lives, lifeTimes, sizes⟩ := p
  obtain ⟨hpositions, hvelocities, hrotations, hspins, hlifeTimes, hsizes⟩ := h
  simp only [count] at *
  simp only [ofRows, mk.injEq]
  refine ⟨?_, ?_, ?_, ?_, ?_, ?_, ?_⟩ <;>
    apply List.ext_getElem <;> simp [rows, *]

variable {p : Particles Rat}

/-- Two steps are one of their sum. -/
theorem advance_advance (h : p.Aligned) (a : Rat) {b : Rat} (hb : 0 ≤ b) :
    (p.advance a).advance b = p.advance (a + b) := by
  rw [← ofRows_rows h]
  simp only [advance_ofRows, Particle.filter_later_later p.rows a hb]

theorem foldl_advance (h : p.Aligned) (first : Rat) {rest : List Rat}
    (hrest : ∀ dt ∈ rest, 0 ≤ dt) :
    rest.foldl advance (p.advance first) = p.advance (first + rest.sum) := by
  induction rest generalizing first with
  | nil => rw [List.foldl_nil, List.sum_nil, add_zero]
  | cons dt rest ih =>
      obtain ⟨hdt, hrest⟩ := List.forall_mem_cons.mp hrest
      rw [List.foldl_cons, advance_advance h first hdt, ih (first + dt) hrest, List.sum_cons,
        add_assoc]

/-- Any steps are one of their sum, if there are any at all. -/
theorem foldl_advance_of_ne_nil (h : p.Aligned) {steps : List Rat} (hsome : steps ≠ [])
    (hsteps : ∀ dt ∈ steps, 0 ≤ dt) : steps.foldl advance p = p.advance steps.sum := by
  obtain ⟨first, rest, rfl⟩ := List.exists_cons_of_ne_nil hsome
  rw [List.foldl_cons, List.sum_cons]
  exact foldl_advance h first (List.forall_mem_cons.mp hsteps).2

/-- In exact arithmetic any number of steps, one after another, make the
    same of the particles as one step of all their time together: the same
    rows in the same order.  In particular it does not matter in which order
    the steps come.  The columns are of one length, as they are in every
    state that comes about.  One step at least there has to be, since only
    a step takes out those whose life was over before. -/
theorem motion_does_not_depend_on_frames (h : p.Aligned) {steps : List Rat}
    (hsome : steps ≠ []) (hsteps : ∀ dt ∈ steps, 0 ≤ dt) :
    steps.foldl advance p = p.advance steps.sum ∧
      ∀ reordered : List Rat, reordered.Perm steps →
        reordered.foldl advance p = steps.foldl advance p := by
  refine ⟨foldl_advance_of_ne_nil h hsome hsteps, ?_⟩
  intro reordered hperm
  have hsome' : reordered ≠ [] := by
    rintro rfl
    exact hsome (List.nil_perm.mp hperm)
  have hsteps' : ∀ dt ∈ reordered, 0 ≤ dt := fun dt hdt => hsteps dt (hperm.mem_iff.mp hdt)
  calc reordered.foldl advance p
      = p.advance reordered.sum := foldl_advance_of_ne_nil h hsome' hsteps'
    _ = p.advance steps.sum := by rw [hperm.sum_eq]
    _ = steps.foldl advance p := (foldl_advance_of_ne_nil h hsome hsteps).symm

/-- Two sparks that fly apart for half a second and then for three quarters:
    the one that lives for a second is gone after that, and the other has
    flown for all of it. -/
theorem short_and_long_life_in_two_frames :
    let short : Particle Rat :=
      { position := ⟨0, -48⟩, velocity := ⟨4, -8⟩, rotation := 0, spin := 1
        life := 0, lifeTime := 1, size := 8 }
    let long : Particle Rat := { short with velocity := ⟨-4, -8⟩, spin := -1, lifeTime := 2 }
    let left : Particle Rat :=
      { long with position := ⟨-5, -58⟩, rotation := -5 / 4, life := 5 / 4 }
    [1 / 2, 3 / 4].foldl advance (ofRows [short, long]) = ofRows [left] ∧
      [3 / 4, 1 / 2].foldl advance (ofRows [short, long]) = ofRows [left] := by
  intro short long left
  have haligned : (ofRows [short, long]).Aligned := aligned_ofRows [short, long]
  have hsteps : ∀ dt ∈ [1 / 2, 3 / 4], (0 : Rat) ≤ dt := by decide +kernel
  have hswap : [3 / 4, 1 / 2].Perm [(1 / 2 : Rat), 3 / 4] := List.Perm.swap (1 / 2) (3 / 4) []
  have hwhole : (ofRows [short, long]).advance [1 / 2, 3 / 4].sum = ofRows [left] := by
    decide +kernel
  obtain ⟨hone, hany⟩ :=
    motion_does_not_depend_on_frames haligned (List.cons_ne_nil (1 / 2) [3 / 4]) hsteps
  exact ⟨hone.trans hwhole, (hany _ hswap).trans (hone.trans hwhole)⟩

end Particles

end BeatShield
