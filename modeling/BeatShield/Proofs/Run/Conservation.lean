import BeatShield.Proofs.Run.Request
import Mathlib.Data.List.Basic

/-! # Conservation — no projectile is lost, and each block is heard and seen

    A projectile leaves the live ones by a block and by nothing else, and
    a block scores, plays the kick and lets a burst fly.  The invariant
    `Conserved` ties the four together: the chart, the live projectiles,
    the score, and the commands returned since the run last started over.

      * `Life.ask` — one request.  A restart plays the song from its
        beginning, and what it returns behind that is all that has been
        returned since: nothing (`sinceSong_of_restarts`).
      * `Conserved.ask` — every request keeps it, because settling keeps
        it (`settle_live`, `settle_score`, `settle_tally`);
      * `projectiles_conserved` — hence it holds after every sequence of
        requests. -/

namespace BeatShield

namespace Command

variable {α : Type}

/-- Whether a command plays the kick. -/
def isKick : Command α → Bool
  | .play .kick => true
  | _ => false

/-- Whether a command lets a burst fly. -/
def isExplosion : Command α → Bool
  | .explode _ => true
  | _ => false

/-- Whether a command plays the song from its beginning. -/
def isSong : Command α → Bool
  | .play .song => true
  | _ => false

/-- The commands behind the last one that plays the song. -/
def sinceSong (commands : List (Command α)) : List (Command α) :=
  commands.rtakeWhile fun command => !command.isSong

/-- Commands whose kicks and bursts come in pairs, each kick right before
    its burst. -/
inductive Paired : List (Command α) → Prop where
  | nil : Paired []
  | volley (burst : Explosion α) {later : List (Command α)} (h : Paired later) :
      Paired (.play .kick :: .explode burst :: later)
  | other {command : Command α} {later : List (Command α)} (hkick : command.isKick = false)
      (hburst : command.isExplosion = false) (h : Paired later) : Paired (command :: later)

/-- Pairs in a row are pairs. -/
theorem Paired.append {first second : List (Command α)} (h₁ : Paired first)
    (h₂ : Paired second) : Paired (first ++ second) := by
  induction h₁ with
  | nil => exact h₂
  | volley burst _ ih => exact .volley burst ih
  | other hkick hburst _ ih => exact .other hkick hburst ih

/-- So there are as many bursts as kicks. -/
theorem Paired.countP_eq {commands : List (Command α)} (h : Paired commands) :
    commands.countP isExplosion = commands.countP isKick := by
  induction h with
  | nil => rfl
  | volley burst _ ih =>
      rw [List.countP_cons_of_neg Bool.false_ne_true, List.countP_cons_of_pos rfl,
        List.countP_cons_of_pos rfl, List.countP_cons_of_neg Bool.false_ne_true, ih]
  | other hkick hburst _ ih =>
      rw [List.countP_cons_of_neg (ne_true_of_eq_false hburst),
        List.countP_cons_of_neg (ne_true_of_eq_false hkick), ih]

end Command

namespace Run

open Command

variable {α : Type} [Scalar α] [Trig α]

/-! ## One frame -/

/-- The commands for blocks are pairs, as many as there are blocks. -/
theorem volleys_tally (tempo : α) (run : Run α) (events : List (Event α)) :
    Paired (run.volleys tempo events) ∧
      (run.volleys tempo events).countP isKick = events.countP (run.blocks tempo) := by
  induction events with
  | nil => exact ⟨.nil, rfl⟩
  | cons event rest ih =>
      obtain ⟨hpaired, hcount⟩ := ih
      -- a projectile makes one pair or none
      cases hb : run.blocks tempo event with
      | true =>
          rw [volleys_cons_of_blocks hb, List.countP_cons_of_pos hb]
          refine ⟨.volley _ hpaired, ?_⟩
          rw [List.countP_cons_of_pos rfl, List.countP_cons_of_neg Bool.false_ne_true,
            hcount]
      | false =>
          rw [volleys_cons_of_not_blocks hb,
            List.countP_cons_of_neg (ne_true_of_eq_false hb)]
          exact ⟨hpaired, hcount⟩

/-- So are all commands of a frame, with or without a hit among them. -/
theorem settle_tally (tempo : α) (run : Run α) (events : List (Event α))
    (halive : run.isDying = false) :
    Paired (settle tempo run events).commands ∧
      (settle tempo run events).commands.countP isKick
        = events.countP (run.blocks tempo) := by
  rcases calm_or_first_hit tempo run events with hcalm | ⟨before, event, after, rfl, hno, hhit⟩
  · rw [settle_calm tempo run events (.inr hcalm)]
    exact volleys_tally tempo run events
  · have hb : run.blocks tempo event = false := by rw [blocks, hhit]; rfl
    -- the end of the run falls between two pairs, never into one
    obtain ⟨hpaired, hcount⟩ := volleys_tally tempo run before
    obtain ⟨hpaired', hcount'⟩ := volleys_tally tempo run after
    rw [settle_first_hit tempo run before event after halive hno hhit]
    refine ⟨hpaired.append (.other rfl rfl (.other rfl rfl hpaired')), ?_⟩
    rw [List.countP_append, List.countP_append, hcount,
      List.countP_cons_of_neg Bool.false_ne_true,
      List.countP_cons_of_neg Bool.false_ne_true, hcount',
      List.countP_cons_of_neg (ne_true_of_eq_false hb)]

/-! ## Whole runs -/

/-- A run together with the commands returned since it last started over,
    which is when the song was played from its beginning. -/
structure Life (α : Type) where
  run : Run α
  since : List (Command α)

/-- A run that has just begun. -/
def Life.ofChart (chart : Chart α) : Life α := { run := Run.ofChart chart, since := [] }

/-- One request. -/
def Life.ask (chart : Chart α) (life : Life α) (request : Request α) : Life α :=
  let (run, commands) := life.run.answer chart request
  { run, since := if request.restarts then sinceSong commands else life.since ++ commands }

/-- A sequence of requests, from the beginning. -/
def Life.ofRequests (chart : Chart α) (requests : List (Request α)) : Life α :=
  requests.foldl (Life.ask chart) (Life.ofChart chart)

/-- Whatever a restart returns, and be it blocks of the same frame, it
    returns before it plays the song. -/
theorem sinceSong_of_restarts (chart : Chart α) (run : Run α) {request : Request α}
    (h : request.restarts = true) : sinceSong (run.answer chart request).2 = [] := by
  obtain ⟨earlier, hanswer⟩ := answer_of_restarts chart run h
  have hlast : earlier ++ (stop ++ start) = (earlier ++ stop) ++ [.play .song] :=
    (List.append_assoc ..).symm
  rw [hanswer, sinceSong, hlast]
  exact List.rtakeWhile_concat_neg _ _ _ Bool.false_ne_true

/-- Every projectile of the chart is live or has scored, and every score
    has been heard and seen. -/
structure Conserved (chart : Chart α) (life : Life α) : Prop where
  live_sublist : life.run.live.Sublist chart.events
  total : life.run.score + life.run.live.length = chart.events.length
  paired : Paired life.since
  kicks : (life.since.countP isKick : Int) = life.run.score

omit [Trig α] in
/-- Nothing is lost of a fresh run. -/
theorem Conserved.ofChart (chart : Chart α) : Conserved chart (Life.ofChart chart) where
  live_sublist := .refl _
  total := Int.zero_add _
  paired := .nil
  kicks := rfl

omit [Scalar α] [Trig α] in
/-- Requests that leave the live projectiles and the score alone may
    return any commands without kicks and bursts. -/
theorem Conserved.idle {chart : Chart α} {life : Life α} (h : Conserved chart life)
    {run : Run α} {commands : List (Command α)} (hlive : run.live = life.run.live)
    (hscore : run.score = life.run.score) (hpaired : Paired commands)
    (hkicks : commands.countP isKick = 0) :
    Conserved chart { run, since := life.since ++ commands } where
  live_sublist := by rw [hlive]; exact h.live_sublist
  total := by
    show run.score + (run.live.length : Int) = _
    rw [hlive, hscore]
    exact h.total
  paired := h.paired.append hpaired
  kicks := by
    show ((life.since ++ commands).countP isKick : Int) = run.score
    rw [List.countP_append, hkicks, Nat.add_zero, hscore]
    exact h.kicks

/-- A frame of a live run turns live projectiles into score, one by one. -/
theorem Conserved.advance {chart : Chart α} {life : Life α} (h : Conserved chart life)
    (halive : life.run.isDying = false) (dt : α) (sides : List Direction) :
    Conserved chart
      { run := (life.run.advance chart.tempo dt sides).run
        since := life.since ++ (life.run.advance chart.tempo dt sides).commands } := by
  rw [advance_of_alive halive]
  have hjudging : (life.run.judging dt sides).isDying = false := halive
  have hlive := settle_live chart.tempo (life.run.judging dt sides) life.run.live hjudging
  have hscore := settle_score chart.tempo (life.run.judging dt sides) life.run.live hjudging
  obtain ⟨hpaired, hkicks⟩ :=
    settle_tally chart.tempo (life.run.judging dt sides) life.run.live hjudging
  have hscore' : (settle chart.tempo (life.run.judging dt sides) life.run.live).run.score
      = life.run.score
        + (life.run.live.countP ((life.run.judging dt sides).blocks chart.tempo) : Int) := hscore
  constructor
  · show (settle chart.tempo (life.run.judging dt sides) life.run.live).run.live.Sublist _
    rw [hlive]
    exact List.filter_sublist.trans h.live_sublist
  · show (settle chart.tempo (life.run.judging dt sides) life.run.live).run.score
      + ((settle chart.tempo (life.run.judging dt sides) life.run.live).run.live.length : Int) = _
    -- each live projectile is blocked and scores, or stays
    have hsplit := List.length_eq_countP_add_countP
      (l := life.run.live) ((life.run.judging dt sides).blocks chart.tempo)
    have hrest : (life.run.live.filter fun event =>
        !(life.run.judging dt sides).blocks chart.tempo event).length
        = life.run.live.countP fun event =>
          !(life.run.judging dt sides).blocks chart.tempo event :=
      List.countP_eq_length_filter.symm
    have htotal := h.total
    rw [hscore', hlive, hrest]
    simp only [Bool.not_eq_true, Bool.decide_eq_false] at hsplit
    omega
  · exact h.paired.append hpaired
  · show ((life.since ++ _).countP isKick : Int)
      = (settle chart.tempo (life.run.judging dt sides) life.run.live).run.score
    have hold := h.kicks
    rw [List.countP_append, hkicks, hscore']
    omega

/-- Every request keeps the projectiles conserved. -/
theorem Conserved.ask {chart : Chart α} {life : Life α} (h : Conserved chart life)
    (request : Request α) : Conserved chart (life.ask chart request) := by
  cases hr : request.restarts with
  | true =>
      obtain ⟨earlier, hanswer⟩ := answer_of_restarts chart life.run hr
      -- behind the restart's song nothing has been returned, so the account is
      -- a fresh one
      have hlife : life.ask chart request = Life.ofChart chart := by
        simp only [Life.ask, if_pos hr, sinceSong_of_restarts chart life.run hr]
        rw [hanswer]
        rfl
      rw [hlife]
      exact .ofChart chart
  | false =>
      have hlife : life.ask chart request
          = { run := (life.run.answer chart request).1
              since := life.since ++ (life.run.answer chart request).2 } := by
        simp [Life.ask, hr]
      rw [hlife]
      cases request with
      | frame dt presses =>
          show Conserved chart
            { run := (life.run.frame chart dt presses).run
              since := life.since ++ (life.run.frame chart dt presses).commands }
          rw [frame_of_not_restart life.run chart dt hr]
          cases hd : life.run.isDying with
          | false => exact h.advance hd dt presses.sides
          | true =>
              -- a dying run blocks nothing more
              obtain ⟨death, hdeath⟩ := Option.isSome_iff_exists.mp hd
              rw [advance_of_dying hdeath]
              exact h.idle rfl rfl .nil rfl
      | restart => exact nomatch hr
      | start => exact h.idle rfl rfl (.other rfl rfl .nil) rfl
      | stop => exact h.idle rfl rfl (.other rfl rfl .nil) rfl

/-- After any requests the live projectiles are some of the chart's, in
    order, and the others have scored.  Since the last restart there have
    been as many kicks and as many bursts as the score says, in pairs of a
    kick and its burst. -/
theorem projectiles_conserved (chart : Chart α) (requests : List (Request α)) :
    let life := Life.ofRequests chart requests
    life.run.live.Sublist chart.events ∧
      life.run.score + life.run.live.length = chart.events.length ∧
      (life.since.countP isKick : Int) = life.run.score ∧
      (life.since.countP isExplosion : Int) = life.run.score ∧
      Paired life.since := by
  -- the invariant is kept from any life on, not only from the first
  have hrun : ∀ life : Life α, Conserved chart life →
      Conserved chart (requests.foldl (Life.ask chart) life) := by
    induction requests with
    | nil => intro life h; exact h
    | cons request later ih => intro life h; exact ih _ (h.ask request)
  have h := hrun (Life.ofChart chart) (.ofChart chart)
  refine ⟨h.live_sublist, h.total, h.kicks, ?_, h.paired⟩
  have heq := h.paired.countP_eq
  have hkicks := h.kicks
  show ((requests.foldl (Life.ask chart) (Life.ofChart chart)).since.countP isExplosion : Int) = _
  rw [heq]
  exact hkicks

end Run

end BeatShield
