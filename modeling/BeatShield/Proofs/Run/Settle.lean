import BeatShield.Run.Frame
import Mathlib.Logic.Function.Iterate

/-! # Settling — what becomes of all projectiles of a frame

    `Run.settle` goes through the live projectiles one by one and changes
    the run on the way.  An outcome depends on the time, the speed and the
    shield alone, and these stay as they are; so every projectile is
    judged as in the state before (`settle_append`).  What settling leads
    to is then said without the recursion, in two cases:

      * `settle_calm` — no projectile begins death: none of them hits, or
        the run was dying already;
      * `settle_first_hit` — the first hit begins death, and those after
        it are settled by a dying run.

    `calm_or_first_hit` says that there are no other cases. -/

namespace BeatShield.Run

variable {α : Type} [Scalar α]

/-- Whether the shield blocks a projectile. -/
def blocks (run : Run α) (tempo : α) (event : Event α) : Bool :=
  run.outcome tempo event == .blocked

/-- Whether a projectile hits the heart. -/
def hits (run : Run α) (tempo : α) (event : Event α) : Bool :=
  run.outcome tempo event == .hit

/-- Several blocks: each scores once and shakes the camera once. -/
def addBlocks (run : Run α) (count : Nat) : Run α :=
  { run with
    score := run.score + count
    shake := (· + Rules.shakeImpulse)^[count] run.shake }

/-- The commands for one block. -/
def volley [Trig α] (run : Run α) (tempo : α) (event : Event α) : List (Command α) :=
  [.play .kick, .explode (run.explosion tempo event)]

/-- The commands for all projectiles that are blocked. -/
def volleys [Trig α] (run : Run α) (tempo : α) (events : List (Event α)) :
    List (Command α) :=
  (events.filter (run.blocks tempo)).flatMap (run.volley tempo)

omit [Scalar α] in
/-- A run is alive as long as no time since a hit is counted. -/
theorem isDying_eq_false_iff {run : Run α} : run.isDying = false ↔ run.death = none := by
  rw [isDying, Option.isSome_eq_false_iff, Option.isNone_iff_eq_none]

/-! ## Single projectiles -/

theorem addBlocks_zero (run : Run α) : run.addBlocks 0 = run := by
  unfold addBlocks
  rw [show ((0 : Nat) : Int) = 0 from rfl, Int.add_zero]
  rfl

/-- The first of several blocks can be scored by itself. -/
theorem addBlocks_succ (run : Run α) (n : Nat) :
    run.addBlocks (n + 1) = run.addBlock.addBlocks n := by
  have hscore : run.score + ((n + 1 : Nat) : Int) = run.score + 1 + (n : Int) := by omega
  unfold addBlocks
  rw [hscore]
  rfl

theorem blocks_iff {run : Run α} {tempo : α} {event : Event α} :
    run.blocks tempo event = true ↔ run.outcome tempo event = .blocked := beq_iff_eq

theorem hits_iff {run : Run α} {tempo : α} {event : Event α} :
    run.hits tempo event = true ↔ run.outcome tempo event = .hit := beq_iff_eq

/-- A projectile is blocked by the shield on its side, within the shield's
    radius. -/
theorem outcome_eq_blocked_iff {run : Run α} {tempo : α} {event : Event α} :
    run.outcome tempo event = .blocked ↔
      run.shield = some event.side ∧ run.distance tempo event < Rules.shieldRadius := by
  unfold outcome
  by_cases hblocked :
      run.shield = some event.side ∧ run.distance tempo event < Rules.shieldRadius
  · simp [hblocked]
  · simp only [if_neg hblocked]
    split <;> simp [hblocked]

/-- What hits is near enough, and the shield has not blocked it. -/
theorem outcome_eq_hit_iff {run : Run α} {tempo : α} {event : Event α} :
    run.outcome tempo event = .hit ↔
      ¬ (run.shield = some event.side ∧ run.distance tempo event < Rules.shieldRadius) ∧
        run.distance tempo event ≤ Rules.hurtRadius := by
  unfold outcome
  by_cases hblocked :
      run.shield = some event.side ∧ run.distance tempo event < Rules.shieldRadius
  · simp [hblocked]
  · simp only [if_neg hblocked]
    split <;> simp_all

/-- A block is heard and seen before those behind it. -/
theorem volleys_cons_of_blocks [Trig α] {run : Run α} {tempo : α} {event : Event α}
    {rest : List (Event α)} (h : run.blocks tempo event = true) :
    run.volleys tempo (event :: rest)
      = .play .kick :: .explode (run.explosion tempo event) :: run.volleys tempo rest := by
  rw [volleys, List.filter_cons_of_pos h]
  rfl

/-- What is not blocked makes no noise. -/
theorem volleys_cons_of_not_blocks [Trig α] {run : Run α} {tempo : α} {event : Event α}
    {rest : List (Event α)} (h : run.blocks tempo event = false) :
    run.volleys tempo (event :: rest) = run.volleys tempo rest := by
  rw [volleys, List.filter_cons_of_neg (ne_true_of_eq_false h)]
  rfl

variable [Trig α]

/-- Blocks ask for kicks and bursts and for nothing else. -/
theorem eq_of_mem_volleys {run : Run α} {tempo : α} {events : List (Event α)}
    {command : Command α} (h : command ∈ run.volleys tempo events) :
    command = .play .kick ∨ ∃ burst, command = .explode burst := by
  obtain ⟨event, -, hcommand⟩ := List.mem_flatMap.mp h
  rcases List.mem_cons.mp hcommand with hkick | hburst
  · exact .inl hkick
  · exact .inr ⟨_, List.mem_singleton.mp hburst⟩

/-- A block is scored, and the rest is settled with it. -/
private theorem settle_cons_blocked {run : Run α} {tempo : α} {event : Event α}
    (h : run.outcome tempo event = .blocked) (rest : List (Event α)) :
    settle tempo run (event :: rest)
      = { settle tempo run.addBlock rest with
          commands := .play .kick :: .explode (run.explosion tempo event)
            :: (settle tempo run.addBlock rest).commands } := by
  rw [settle, h]

/-- A pending projectile is kept, and the rest is settled without it. -/
private theorem settle_cons_pending {run : Run α} {tempo : α} {event : Event α}
    (h : run.outcome tempo event = .pending) (rest : List (Event α)) :
    settle tempo run (event :: rest) = (settle tempo run rest).keep event := by
  rw [settle, h]

/-- A hit on a dying run is kept like a pending projectile. -/
private theorem settle_cons_hit_dying {run : Run α} {tempo : α} {event : Event α}
    (h : run.outcome tempo event = .hit) (hdying : run.isDying = true)
    (rest : List (Event α)) :
    settle tempo run (event :: rest) = (settle tempo run rest).keep event := by
  rw [settle, h]
  exact if_pos hdying

/-- A hit on a live run begins death, and the rest is settled by a dying
    run. -/
private theorem settle_cons_hit_alive {run : Run α} {tempo : α} {event : Event α}
    (h : run.outcome tempo event = .hit) (halive : run.isDying = false)
    (rest : List (Event α)) :
    settle tempo run (event :: rest)
      = { (settle tempo run.beginDeath rest).keep event with
          commands := .stop .song :: .play .death
            :: ((settle tempo run.beginDeath rest).keep event).commands
          notices := .hit event.side run.elapsed run.score
            :: ((settle tempo run.beginDeath rest).keep event).notices } := by
  rw [settle, h]
  exact if_neg (ne_true_of_eq_false halive)

/-! ## All projectiles -/

/-- Projectiles among which no death begins, in front of others: their
    blocks score and are commanded first, and the rest of them stays live in
    front of what else stays. -/
theorem settle_append (tempo : α) (run : Run α) (before rest : List (Event α))
    (h : run.isDying = true ∨ ∀ event ∈ before, run.outcome tempo event ≠ .hit) :
    settle tempo run (before ++ rest)
      = let s := settle tempo (run.addBlocks (before.countP (run.blocks tempo))) rest
        { run := { s.run with
            live := (before.filter fun event => !run.blocks tempo event) ++ s.run.live }
          commands := run.volleys tempo before ++ s.commands
          notices := s.notices } := by
  induction before generalizing run with
  | nil =>
      rw [List.countP_nil, addBlocks_zero]
      rfl
  | cons event before ih =>
      have hbefore : run.isDying = true ∨ ∀ event ∈ before, run.outcome tempo event ≠ .hit :=
        h.imp_right fun hall e he => hall e (List.mem_cons_of_mem event he)
      cases ho : run.outcome tempo event with
      | blocked =>
          have hb : run.blocks tempo event = true := blocks_iff.mpr ho
          -- one more block changes no outcome, so both runs block the same projectiles
          rw [List.cons_append, settle_cons_blocked ho, ih run.addBlock hbefore,
            volleys_cons_of_blocks hb, List.countP_cons_of_pos hb, addBlocks_succ,
            List.filter_cons_of_neg (by simp [hb])]
          rfl
      | pending =>
          have hb : run.blocks tempo event = false := by rw [blocks, ho]; rfl
          rw [List.cons_append, settle_cons_pending ho, ih run hbefore,
            volleys_cons_of_not_blocks hb, List.countP_cons_of_neg (ne_true_of_eq_false hb),
            List.filter_cons_of_pos (by rw [hb]; rfl)]
          rfl
      | hit =>
          have hb : run.blocks tempo event = false := by rw [blocks, ho]; rfl
          have hdying : run.isDying = true :=
            h.resolve_right fun hall => hall event List.mem_cons_self ho
          rw [List.cons_append, settle_cons_hit_dying ho hdying, ih run hbefore,
            volleys_cons_of_not_blocks hb, List.countP_cons_of_neg (ne_true_of_eq_false hb),
            List.filter_cons_of_pos (by rw [hb]; rfl)]
          rfl

/-- Without a hit, or once the run is dying, settling takes the blocked
    projectiles away and does nothing else. -/
theorem settle_calm (tempo : α) (run : Run α) (events : List (Event α))
    (h : run.isDying = true ∨ ∀ event ∈ events, run.outcome tempo event ≠ .hit) :
    settle tempo run events
      = { run := { run.addBlocks (events.countP (run.blocks tempo)) with
            live := events.filter fun event => !run.blocks tempo event }
          commands := run.volleys tempo events
          notices := [] } := by
  have hall := settle_append tempo run events [] h
  simpa only [settle, List.append_nil] using hall

/-- The first hit begins death in its place; the blocks before it and
    after it go on as ever, but the shake starts anew. -/
theorem settle_first_hit (tempo : α) (run : Run α) (before : List (Event α))
    (event : Event α) (after : List (Event α)) (halive : run.isDying = false)
    (hbefore : ∀ e ∈ before, run.outcome tempo e ≠ .hit)
    (hhit : run.outcome tempo event = .hit) :
    settle tempo run (before ++ event :: after)
      = { run := { (run.addBlocks (before.countP (run.blocks tempo))).beginDeath.addBlocks
              (after.countP (run.blocks tempo)) with
            live := (before ++ event :: after).filter fun e => !run.blocks tempo e }
          commands := run.volleys tempo before
            ++ .stop .song :: .play .death :: run.volleys tempo after
          notices := [.hit event.side run.elapsed
            (run.score + before.countP (run.blocks tempo))] } := by
  have hb : run.blocks tempo event = false := by rw [blocks, hhit]; rfl
  have hhit' : (run.addBlocks (before.countP (run.blocks tempo))).outcome tempo event = .hit :=
    hhit
  -- what stands before the hit is settled alive, what stands behind it dying
  rw [settle_append tempo run before (event :: after) (.inr hbefore),
    settle_cons_hit_alive hhit' halive, settle_calm tempo _ after (.inl rfl),
    List.filter_append, List.filter_cons_of_pos (by rw [hb]; rfl)]
  rfl

omit [Trig α] in
/-- Some projectiles hit or none does, and if some do there is a first. -/
theorem calm_or_first_hit (tempo : α) (run : Run α) (events : List (Event α)) :
    (∀ event ∈ events, run.outcome tempo event ≠ .hit) ∨
      ∃ before event after, events = before ++ event :: after ∧
        (∀ e ∈ before, run.outcome tempo e ≠ .hit) ∧ run.outcome tempo event = .hit := by
  cases hfind : events.find? (run.hits tempo) with
  | none =>
      refine .inl fun event hmem hhit => ?_
      exact List.find?_eq_none.mp hfind event hmem (hits_iff.mpr hhit)
  | some event =>
      obtain ⟨hhit, before, after, hsplit, hbefore⟩ := List.find?_eq_some_iff_append.mp hfind
      refine .inr ⟨before, event, after, hsplit, ?_, hits_iff.mp hhit⟩
      intro e he hhit'
      have hnot := hbefore e he
      rw [hits_iff.mpr hhit'] at hnot
      exact nomatch hnot

/-! ## Parts of the result -/

/-- Those that are not blocked stay live, in their old order. -/
theorem settle_live (tempo : α) (run : Run α) (events : List (Event α))
    (halive : run.isDying = false) :
    (settle tempo run events).run.live
      = events.filter fun event => !run.blocks tempo event := by
  rcases calm_or_first_hit tempo run events with hcalm | ⟨before, event, after, rfl, hno, hhit⟩
  · rw [settle_calm tempo run events (.inr hcalm)]
  · rw [settle_first_hit tempo run before event after halive hno hhit]

/-- Every block scores, before death and after it begins. -/
theorem settle_score (tempo : α) (run : Run α) (events : List (Event α))
    (halive : run.isDying = false) :
    (settle tempo run events).run.score
      = run.score + (events.countP (run.blocks tempo) : Int) := by
  rcases calm_or_first_hit tempo run events with hcalm | ⟨before, event, after, rfl, hno, hhit⟩
  · rw [settle_calm tempo run events (.inr hcalm)]
    rfl
  · have hb : run.blocks tempo event = false := by rw [blocks, hhit]; rfl
    rw [settle_first_hit tempo run before event after halive hno hhit, List.countP_append,
      List.countP_cons_of_neg (ne_true_of_eq_false hb)]
    show run.score + (before.countP (run.blocks tempo) : Int)
      + (after.countP (run.blocks tempo) : Int) = _
    omega

/-- Death begins exactly if some projectile hits. -/
theorem settle_isDying_iff (tempo : α) (run : Run α) (events : List (Event α))
    (halive : run.isDying = false) :
    (settle tempo run events).run.isDying = true ↔
      ∃ event ∈ events, run.outcome tempo event = .hit := by
  rcases calm_or_first_hit tempo run events with hcalm | ⟨before, event, after, rfl, hno, hhit⟩
  · rw [settle_calm tempo run events (.inr hcalm)]
    constructor
    · intro hdying
      -- without a hit nothing changes about the death
      have hdying' : run.isDying = true := hdying
      rw [halive] at hdying'
      exact nomatch hdying'
    · rintro ⟨event, hmem, hhit⟩
      exact absurd hhit (hcalm event hmem)
  · rw [settle_first_hit tempo run before event after halive hno hhit]
    constructor
    · intro _
      exact ⟨event, List.mem_append_right before List.mem_cons_self, hhit⟩
    · intro _
      rfl

end BeatShield.Run
