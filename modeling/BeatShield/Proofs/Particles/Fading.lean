import BeatShield.Proofs.Particles.Motion
import BeatShield.Proofs.Scene.Picture

/-! # Fading — particles fade from white towards black

    A particle is white when it bursts, and over its life it fades at an
    even rate towards black.  Every step of time makes all particles older
    and then takes out those whose life is over, so that none is left that
    would be darker than black.

      * `Particle.Fading` — the life of a particle has begun and is not
        over.  Bursts begin it, and a step leaves only those with life left;
        so it holds of all particles that come about (`fading_answer`, and
        `fading_foldl` by induction on the requests).
      * Such a particle has an opacity above 0 and up to 1, a step does not
        make it more opaque (`Fading.alpha_later_le`), and its grey is from
        0 to 255 (`Colour.faded_exact`).
      * `Scene.sparks` is the picture of the particles in any arithmetic,
        with the shape left open in which they are drawn.  The picture of a
        run is of this form (`Scene.particles_eq_sparks`). -/

namespace BeatShield

/-! ## One particle -/

namespace Particle

/-- How opaque a particle is. -/
def alpha {α : Type} [Scalar α] (q : Particle α) : α := 1.0 - q.life / q.lifeTime

/-- The life of a particle has begun and is not over. -/
structure Fading (q : Particle Rat) : Prop where
  begun : 0 ≤ q.life
  lasting : q.life < q.lifeTime

variable {q : Particle Rat} {dt : Rat}

/-- In exact arithmetic the fading is the part of the life that is left. -/
theorem alpha_exact (q : Particle Rat) : q.alpha = 1 - q.life / q.lifeTime := by
  norm_num [alpha]

namespace Fading

theorem lifeTime_pos (h : q.Fading) : 0 < q.lifeTime := h.begun.trans_lt h.lasting

/-- As long as it lives it can be seen. -/
theorem alpha_pos (h : q.Fading) : 0 < q.alpha := by
  have hpart : q.life / q.lifeTime < 1 := (div_lt_one h.lifeTime_pos).mpr h.lasting
  rw [alpha_exact]
  linarith

theorem alpha_le_one (h : q.Fading) : q.alpha ≤ 1 := by
  have hpart : 0 ≤ q.life / q.lifeTime := div_nonneg h.begun h.lifeTime_pos.le
  rw [alpha_exact]
  linarith

/-- Nothing becomes more opaque with time. -/
theorem alpha_later_le (h : q.Fading) (hdt : 0 ≤ dt) : (q.later dt).alpha ≤ q.alpha := by
  have hpart : q.life / q.lifeTime ≤ (q.life + dt) / q.lifeTime :=
    div_le_div_of_nonneg_right (le_add_of_nonneg_right hdt) h.lifeTime_pos.le
  rw [alpha_exact, alpha_exact]
  show 1 - (q.life + dt) / q.lifeTime ≤ 1 - q.life / q.lifeTime
  linarith

/-- Whoever is alive after a step is still fading. -/
theorem later (h : q.Fading) (hdt : 0 ≤ dt) (halive : (q.later dt).isAlive = true) :
    (q.later dt).Fading where
  begun := add_nonneg h.begun hdt
  lasting := of_decide_eq_true halive

end Fading

/-- The particles of a burst begin to fade. -/
theorem fading_of_mem_particles [Trig Rat] {burst : Explosion Rat} {draws : Draws Rat}
    (hlife : 0 < burst.life) (h : q ∈ burst.particles draws) : q.Fading := by
  obtain ⟨place, -, rfl⟩ := List.mem_map.mp h
  have hzero : (0.0 : Rat) = 0 := by norm_num
  constructor
  · show (0 : Rat) ≤ 0.0
    exact hzero.ge
  · show (0.0 : Rat) < burst.life
    rwa [hzero]

end Particle

/-! ## All particles -/

/-- A request that bursts particles with a life, or lets no negative time
    pass. -/
def Particles.Request.Sensible : Particles.Request Rat → Prop
  | .spawn burst => 0 < burst.life
  | .advance dt => 0 ≤ dt
  | .clear => True

/-- All particles of a swarm are fading. -/
def Swarm.Fading (swarm : Swarm Rat) : Prop := ∀ q ∈ swarm.particles, q.Fading

namespace Swarm

variable [Trig Rat] {swarm : Swarm Rat}

/-- Every sensible request leaves the particles fading. -/
theorem fading_answer (h : swarm.Fading) {request : Particles.Request Rat}
    (hrequest : request.Sensible) : (swarm.answer request).Fading := by
  intro q hq
  cases request with
  | spawn burst =>
      rcases List.mem_append.mp hq with hold | hnew
      · exact h q hold
      · exact Particle.fading_of_mem_particles hrequest hnew
  | advance dt =>
      obtain ⟨hmoved, halive⟩ := List.mem_filter.mp hq
      obtain ⟨old, hold, rfl⟩ := List.mem_map.mp hmoved
      exact (h old hold).later hrequest halive
  | clear => exact nomatch hq

/-- So do all of them together. -/
theorem fading_foldl (h : swarm.Fading) {requests : List (Particles.Request Rat)}
    (hrequests : ∀ request ∈ requests, request.Sensible) :
    (requests.foldl answer swarm).Fading := by
  induction requests generalizing swarm with
  | nil => exact h
  | cons request rest ih =>
      obtain ⟨hrequest, hrest⟩ := List.forall_mem_cons.mp hrequests
      exact ih (fading_answer h hrequest) hrest

end Swarm

theorem Particles.alphas_ofRows {α : Type} [Scalar α] (rows : List (Particle α)) :
    (ofRows rows).alphas = rows.map (·.alpha) := by
  simp only [alphas, ofRows, List.zipWith_map, List.zipWith_self]
  rfl

/-! ## Colours -/

/-- Whether every component is from 0 to 255. -/
structure Colour.Valid (colour : Colour) : Prop where
  red : colour.red ≤ 255
  green : colour.green ≤ 255
  blue : colour.blue ≤ 255

/-- A part of white is a grey. -/
theorem Colour.faded_exact {alpha : Rat} (hlow : 0 ≤ alpha) (hhigh : alpha ≤ 1) :
    ∃ c : Nat, c ≤ 255 ∧ faded alpha = .ok ⟨c, c, c, 255⟩ := by
  have hwhite : (255.0 : Rat) = 255 := by norm_num
  have hpos : (0 : Rat) ≤ 255.0 * alpha := by rw [hwhite]; linarith
  have hmost : (255.0 : Rat) * alpha ≤ 255 := by rw [hwhite]; linarith
  have hc : ⌊(255.0 : Rat) * alpha⌋₊ ≤ 255 := Nat.floor_le_of_le hmost
  refine ⟨⌊(255.0 : Rat) * alpha⌋₊, hc, ?_⟩
  have hwhole : whole (255.0 * alpha) = .ok (⌊(255.0 : Rat) * alpha⌋₊ : Int) := by
    rw [whole, Scalar.truncate_exact hpos]
    rfl
  unfold faded
  rw [hwhole]
  show component _ >>= _ = _
  rw [component_eq_ok (Int.natCast_nonneg _) (by exact_mod_cast hc), Int.toNat_natCast]
  rfl

namespace Scene

variable {α γ : Type} [Scalar α]

/-- One particle in any arithmetic: its colour, and the shape that its
    place, rotation and size give. -/
def spark (shape : Vec α → α → α → Except NumberError γ)
    (row : (Vec α × α) × (α × α)) : Journal (Colour × γ) DrawError Unit := do
  let ((position, rotation), (size, alpha)) := row
  let colour ← Journal.ofExcept (Colour.faded alpha)
  let drawn ← Journal.ofExcept ((shape position rotation size).mapError .number)
  Journal.write (colour, drawn)

/-- All particles in any arithmetic. -/
def sparks (shape : Vec α → α → α → Except NumberError γ) (p : Particles α) :
    Journal (Colour × γ) DrawError Unit :=
  ((p.positions.zip p.rotations).zip (p.sizes.zip p.alphas)).forM (spark shape)

/-- The picture of a run draws its particles in this way, as squares. -/
theorem particles_eq_sparks (origin : Vec Float) (p : Particles Float) :
    particles origin p
      = (sparks (Shape.square origin) p).mapEntries fun drawn => .polygon drawn.1 drawn.2 := by
  have hone : ∀ row, particle origin row
      = (spark (Shape.square origin) row).mapEntries fun drawn => .polygon drawn.1 drawn.2 := by
    rintro ⟨⟨place, rotation⟩, size, alpha⟩
    simp only [spark, Journal.mapEntries_bind]
    rfl
  unfold particles sparks
  -- both go through the same rows, and differ only in what they call a
  -- polygon
  induction (p.positions.zip p.rotations).zip (p.sizes.zip p.alphas) with
  | nil => rfl
  | cons row rest ih =>
      show (particle origin row >>= fun _ => rest.forM (particle origin))
        = (spark (Shape.square origin) row >>= fun _ =>
            rest.forM (spark (Shape.square origin))).mapEntries _
      rw [Journal.mapEntries_bind, ← hone, ih]

/-- No particle that fades is refused its colour, whatever its shape is. -/
theorem spark_of_fading (shape : Vec Rat → Rat → Rat → Except NumberError γ) {q : Particle Rat}
    (h : q.Fading) :
    let drawing := spark shape ((q.position, q.rotation), (q.size, q.alpha))
    drawing.result ≠ .error .colour ∧ drawing.Only fun drawn => drawn.1.Valid := by
  obtain ⟨c, hc, hcolour⟩ := Colour.faded_exact h.alpha_pos.le h.alpha_le_one
  simp only [spark, hcolour]
  cases shape q.position q.rotation q.size with
  | error cause => exact ⟨nofun, nofun⟩
  | ok drawn => exact ⟨nofun, Journal.only_write ⟨hc, hc, hc⟩⟩

/-- Nor is any of them together. -/
theorem sparks_of_fading (shape : Vec Rat → Rat → Rat → Except NumberError γ)
    {rows : List (Particle Rat)} (h : ∀ q ∈ rows, q.Fading) :
    let drawing := sparks shape (Particles.ofRows rows)
    drawing.result ≠ .error .colour ∧ drawing.Only fun drawn => drawn.1.Valid := by
  have hrows : sparks shape (Particles.ofRows rows)
      = (rows.map fun q => ((q.position, q.rotation), (q.size, q.alpha))).forM (spark shape) := by
    rw [sparks, Particles.alphas_ofRows]
    simp only [Particles.ofRows, List.zip_map']
  rw [hrows]
  constructor
  · intro herror
    -- what stops the picture would have stopped one particle
    obtain ⟨row, hrow, herror⟩ := Journal.exists_of_forM_result_eq_error herror
    obtain ⟨q, hq, rfl⟩ := List.mem_map.mp hrow
    exact (spark_of_fading shape (h q hq)).1 herror
  · refine Journal.Only.forM fun row hrow => ?_
    obtain ⟨q, hq, rfl⟩ := List.mem_map.mp hrow
    exact (spark_of_fading shape (h q hq)).2

end Scene

/-! ## All that comes about -/

namespace Particles

/-- After any bursts of particles with a life, any steps that are not
    negative and any clearings, in exact arithmetic, every particle has begun
    its life and has some of it left.  So no opacity is divided by zero, all
    of them are above 0 and at most 1, and the picture of the particles is
    never refused a colour, whatever shapes they are drawn in.  A further
    step takes particles out and makes none of the others more opaque, and a
    further burst leaves all of them as they are. -/
theorem particles_fade_within_range [Trig Rat] (draws : Draws Rat)
    (requests : List (Request Rat)) (hrequests : ∀ request ∈ requests, request.Sensible) :
    let p := (requests.foldl answer (empty, draws)).1
    (∀ q ∈ p.rows, 0 ≤ q.life ∧ q.life < q.lifeTime) ∧
    (∀ lifeTime ∈ p.lifeTimes, lifeTime ≠ 0) ∧
    p.alphas = p.rows.map (·.alpha) ∧
    (∀ alpha ∈ p.alphas, 0 < alpha ∧ alpha ≤ 1) ∧
    (∀ (γ : Type) (shape : Vec Rat → Rat → Rat → Except NumberError γ),
      (Scene.sparks shape p).result ≠ .error .colour ∧
      ∀ drawn ∈ (Scene.sparks shape p).entries, drawn.1.Valid) ∧
    (∀ dt, 0 ≤ dt →
      (p.advance dt).rows = (p.rows.map (·.later dt)).filter Particle.isAlive ∧
      ∀ q ∈ p.rows, (q.later dt).alpha ≤ q.alpha) ∧
    ∀ burst draws, (p.spawn burst draws).1.rows = p.rows ++ burst.particles draws := by
  intro p
  let rows := (requests.foldl Swarm.answer ⟨[], draws⟩).particles
  -- the columns are those of a list of rows, and of rows the invariant is
  -- known
  have hp : p = ofRows rows := congrArg Prod.fst (foldl_answer_ofRows requests ⟨[], draws⟩)
  have hrows : ∀ q ∈ rows, q.Fading :=
    Swarm.fading_foldl (fun q hq => absurd hq List.not_mem_nil) hrequests
  rw [hp, rows_ofRows, alphas_ofRows]
  refine ⟨?_, ?_, rfl, ?_, ?_, ?_, ?_⟩
  · exact fun q hq => ⟨(hrows q hq).begun, (hrows q hq).lasting⟩
  · intro lifeTime hmem
    obtain ⟨q, hq, rfl⟩ := List.mem_map.mp hmem
    exact (hrows q hq).lifeTime_pos.ne'
  · intro alpha hmem
    obtain ⟨q, hq, rfl⟩ := List.mem_map.mp hmem
    exact ⟨(hrows q hq).alpha_pos, (hrows q hq).alpha_le_one⟩
  · exact fun γ shape => Scene.sparks_of_fading shape hrows
  · intro dt hdt
    rw [advance_ofRows]
    exact ⟨rows_ofRows _, fun q hq => (hrows q hq).alpha_later_le hdt⟩
  · intro burst draws
    rw [spawn_ofRows]
    exact rows_ofRows _

/-- Two sparks that live for five seconds, the second of them half as old as
    the first. -/
theorem older_spark_is_darker :
    let _trig : Trig Rat := { pi := 22 / 7, cos := id, sin := id }
    let burst : Explosion Rat :=
      { origin := ⟨0, -48⟩, angle := ⟨-1, 1⟩, speed := ⟨128, 338⟩, count := 1, life := 5
        rotation := ⟨0, 1⟩, spin := ⟨-1, 1⟩, size := 10 }
    let requests : List (Request Rat) := [.spawn burst, .advance 2, .spawn burst, .advance 2]
    let draws : Draws Rat := { source := fun _ => 1 / 2 }
    let p := (requests.foldl answer (empty, draws)).1
    (∀ request ∈ requests, request.Sensible) ∧ p.alphas = [1 / 5, 3 / 5] ∧
      (∀ alpha ∈ p.alphas, 0 < alpha ∧ alpha ≤ 1) ∧
      (∀ q ∈ p.rows, (q.later 1).alpha ≤ q.alpha) ∧ ((p.advance 1).rows.length = 1) := by
  intro _trig burst requests draws p
  have hrequests : ∀ request ∈ requests, request.Sensible := by
    simp only [requests, List.forall_mem_cons, List.not_mem_nil, false_imp_iff, implies_true,
      Request.Sensible, burst]
    norm_num
  obtain ⟨-, -, -, halphas, -, hstep, -⟩ :=
    particles_fade_within_range draws requests hrequests
  exact ⟨hrequests, by decide +kernel, halphas, (hstep 1 zero_le_one).2, by decide +kernel⟩

end Particles

end BeatShield
