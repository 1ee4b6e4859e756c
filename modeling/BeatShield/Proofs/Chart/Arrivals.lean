import BeatShield.Proofs.Chart.Atom
import BeatShield.Proofs.Chart.Grammar
import BeatShield.Proofs.Number.Arithmetic

/-! # Arrivals — when projectiles arrive, in exact arithmetic

    Over the rationals a fourth lasts `15 / tempo` seconds and an offset
    as long as its fourths together, so its length depends on their number
    alone (`Offset.seconds_exact`).

      * `Chained.arrival_eq` — each arrival is the start and a prefix sum,
        by induction on the lines;
      * `Chained.pairwise_le` — the arrivals are sorted if no offset is
        negative;
      * `Chained.rewritten` — the events stay the same if the offsets are
        written otherwise.

    Texts are read in doubles.  `Token.exact` takes these for the numbers
    that they stand for, and a text whose header is finite is a chart in
    exact arithmetic as well (`arrivals_add_up`). -/

namespace BeatShield

open Checked

/-! ## Offsets and lines -/

/-- A positive tempo can be divided by. -/
theorem Tempo.beatLength_exact {tempo : Rat} (h : 0 < tempo) :
    Tempo.beatLength tempo = .ok (60 / tempo) := by
  have hzero : ¬ Scalar.IsZero tempo := by
    rintro ⟨hle, -⟩
    norm_num at hle
    exact absurd h (not_lt.mpr hle)
  have hdivide : Tempo.beatLength tempo = .ok (60.0 / tempo) := if_neg hzero
  rw [hdivide]
  norm_num

/-- An offset lasts as long as its fourths. -/
theorem Offset.seconds_exact (o : Offset) {tempo : Rat} (h : 0 < tempo) :
    o.seconds tempo = .ok (15 / tempo * o.totalFourths) := by
  rw [Offset.seconds, Tempo.beatLength_exact h]
  show Except.ok _ = _
  congr 1
  rw [Offset.totalFourths]
  push_cast
  field_simp
  norm_num
  ring

namespace Line

/-- The fourths that some lines last together. -/
def fourths (lines : List Line) : Int := (lines.map (·.offset.totalFourths)).sum

theorem fourths_cons (line : Line) (lines : List Line) :
    fourths (line :: lines) = line.offset.totalFourths + fourths lines := List.sum_cons

/-- Lines that differ in nothing but the notation of their offsets. -/
structure SameLength (line other : Line) : Prop where
  kind : line.kind = other.kind
  side : line.side = other.side
  fourths : line.offset.totalFourths = other.offset.totalFourths

end Line

/-! ## Chained arrivals -/

namespace Chained

theorem length_eq {α : Type} [Scalar α] {tempo before : α} {lines : List Line}
    {events : List (Event α)} (h : Chained tempo before lines events) :
    events.length = lines.length := by
  induction h with
  | nil => rfl
  | cons _ _ ih => rw [List.length_cons, List.length_cons, ih]

variable {tempo before : Rat} {lines lines' : List Line} {events : List (Event Rat)}

/-- The delay of a line is its length in seconds. -/
theorem delay_eq {o : Offset} {delay : Rat} (hpos : 0 < tempo) (h : o.seconds tempo = .ok delay) :
    delay = 15 / tempo * o.totalFourths :=
  Except.ok.inj (h.symm.trans (o.seconds_exact hpos))

/-- At a positive tempo every list of lines gives events. -/
theorem exists_chained (hpos : 0 < tempo) (before : Rat) (lines : List Line) :
    ∃ events, Chained tempo before lines events := by
  induction lines generalizing before with
  | nil => exact ⟨[], .nil before⟩
  | cons line lines ih =>
      obtain ⟨events, hlater⟩ := ih (before + 15 / tempo * line.offset.totalFourths)
      exact ⟨_, .cons (line.offset.seconds_exact hpos) hlater⟩

/-- Each arrival is the time before and the length of all lines up to its
    own. -/
theorem arrival_eq (h : Chained tempo before lines events) (hpos : 0 < tempo) {k : Nat}
    (hk : k < events.length) :
    events[k].arrival = before + 15 / tempo * Line.fourths (lines.take (k + 1)) := by
  induction h generalizing k with
  | nil => exact absurd hk (Nat.not_lt_zero k)
  | @cons before delay line lines events hdelay _ ih =>
      obtain rfl := delay_eq hpos hdelay
      rw [List.take_succ_cons, Line.fourths_cons, Int.cast_add]
      cases k with
      | zero =>
          show before + 15 / tempo * line.offset.totalFourths = _
          rw [List.take_zero, show Line.fourths [] = 0 from rfl, Int.cast_zero, add_zero]
      | succ k =>
          rw [List.getElem_cons_succ, ih (Nat.lt_of_succ_lt_succ hk)]
          ring

/-- No event arrives before one ahead of it, nor before the time that the
    first one is counted from. -/
theorem pairwise_le (h : Chained tempo before lines events) (hpos : 0 < tempo)
    (hnatural : ∀ line ∈ lines, line.offset.Natural) :
    (before :: events.map Event.arrival).Pairwise (· ≤ ·) := by
  rw [← List.isChain_iff_pairwise]
  induction h with
  | nil before => exact .singleton before
  | @cons before delay line lines events hdelay _ ih =>
      obtain ⟨hline, hlines⟩ := List.forall_mem_cons.mp hnatural
      have hfourths : (0 : Rat) ≤ line.offset.totalFourths := mod_cast hline.totalFourths_nonneg
      have hdelay : 0 ≤ delay := by
        rw [delay_eq hpos hdelay]
        positivity
      exact .cons_cons (le_add_of_nonneg_right hdelay) (ih hlines)

/-- The events do not tell in which notation the offsets are written. -/
theorem rewritten (h : Chained tempo before lines events) (hpos : 0 < tempo)
    (hsame : List.Forall₂ Line.SameLength lines lines') : Chained tempo before lines' events := by
  induction h generalizing lines' with
  | nil before =>
      cases hsame
      exact .nil before
  | @cons before delay line lines events hdelay _ ih =>
      cases hsame with
      | @cons _ line' _ lines' hline hlines =>
          have hdelay' : line'.offset.seconds tempo = .ok delay := by
            rw [← hdelay, Offset.seconds_exact _ hpos, Offset.seconds_exact _ hpos, hline.fourths]
          rw [hline.kind, hline.side]
          exact .cons hdelay' (ih hlines)

end Chained

/-! ## From doubles to the numbers they stand for -/

/-- A token with the number that its double stands for. -/
def Token.exact : Token Float → Token Rat
  | .tempoMarker => .tempoMarker
  | .offsetMarker => .offsetMarker
  | .timeOffset offset => .timeOffset offset
  | .direction side => .direction side
  | .number value => .number (Double.value value)
  | .eventType kind => .eventType kind

namespace HeaderNumber

variable {n : HeaderNumber}

/-- The number that a header number stands for. -/
def exact : HeaderNumber → Rat
  | literal value => Double.value value
  | bare beats => beats

theorem asNumber_exact (n : HeaderNumber) : n.token.exact.asNumber = .ok n.exact := by
  cases n <;> rfl

/-- A finite number of the header is the double for it. -/
theorem rounds_exact (h : n.value.isFinite) : Double.Rounds n.exact n.value := by
  cases n with
  | literal value => exact Double.rounds_value h
  | bare beats => exact Double.rounds_nearestDouble beats

/-- A number whose double is above zero is above zero itself. -/
theorem exact_pos (h : n.value.isFinite) (hpos : 0.0 < n.value) : 0 < n.exact := by
  by_contra hneg
  have hle : n.exact ≤ Double.value 0.0 := Double.value_zero.symm ▸ not_lt.mp hneg
  exact not_le_zero_of_pos hpos ((rounds_exact h).le rfl hle)

end HeaderNumber

namespace Score

/-- Only the header's numbers are made exact. -/
theorem tokens_exact (score : Score) :
    score.tokens.map Token.exact = .tempoMarker :: score.tempo.token.exact :: .offsetMarker
      :: score.start.token.exact :: score.lines.flatMap Line.tokens := by
  have hlines : (score.lines.flatMap Line.tokens).map Token.exact
      = score.lines.flatMap Line.tokens := List.map_flatMap
  rw [tokens, List.map_append, hlines]
  rfl

/-- In exact arithmetic a score with a positive tempo is a chart as soon as
    its arrivals are chained. -/
theorem ofTokens_exact {score : Score} {events : List (Event Rat)}
    (hpos : 0 < score.tempo.exact)
    (h : Chained score.tempo.exact score.start.exact score.lines events) :
    Chart.ofTokens (score.tokens.map Token.exact)
      = .ok { tempo := score.tempo.exact, start := score.start.exact, events } := by
  have hpos' : 0.0 < score.tempo.exact := by
    norm_num
    exact hpos
  exact Chart.ofTokens_eq_ok_iff_chained.mpr ⟨_, _, score.lines, score.tokens_exact,
    score.tempo.asNumber_exact, hpos', score.start.asNumber_exact, h⟩

end Score

/-- The `k`-th projectile of a chart arrives at the start plus the length
    of the first `k` offsets, if nothing is rounded.  So the arrivals are
    sorted although no reader checks this, and the chart does not tell how
    an offset is split into fourths, beats and bars. -/
theorem arrivals_add_up {source : List Char} {played : Chart Float}
    (h : Chart.ofText source = .ok played) (htempo : played.tempo.isFinite)
    (hstart : played.start.isFinite) :
    ∃ score : Score, Token.ofText source = .ok score.tokens ∧ score.chart = played ∧
      ∃ chart : Chart Rat, Chart.ofTokens (score.tokens.map Token.exact) = .ok chart ∧
        Double.Rounds chart.tempo played.tempo ∧ Double.Rounds chart.start played.start ∧
        chart.events.length = score.lines.length ∧
        (∀ k (hk : k < chart.events.length), chart.events[k].arrival
          = chart.start + 15 / chart.tempo * Line.fourths (score.lines.take (k + 1))) ∧
        (chart.start :: chart.events.map Event.arrival).Pairwise (· ≤ ·) ∧
        ∀ lines, List.Forall₂ Line.SameLength score.lines lines →
          Chart.ofTokens (({ score with lines } : Score).tokens.map Token.exact) = .ok chart := by
  obtain ⟨tokens, htokens, hchart⟩ := bind_eq_ok.mp h
  obtain ⟨score, rfl, hadmissible, rfl⟩ := (ofTokens_eq_ok_iff tokens played).mp hchart
  have hpos : 0 < score.tempo.exact := HeaderNumber.exact_pos htempo hadmissible.tempo_pos
  -- what was read from a text has no negative part, so no delay is negative
  have hnatural : ∀ line ∈ score.lines, line.offset.Natural := by
    intro line hline
    exact Token.natural_of_ofText htokens
      (List.mem_append_right _ (Line.offset_mem_tokens hline))
  obtain ⟨events, hchain⟩ := Chained.exists_chained hpos score.start.exact score.lines
  refine ⟨score, htokens, rfl, ⟨score.tempo.exact, score.start.exact, events⟩,
    Score.ofTokens_exact hpos hchain, HeaderNumber.rounds_exact htempo,
    HeaderNumber.rounds_exact hstart, hchain.length_eq, ?_, hchain.pairwise_le hpos hnatural, ?_⟩
  · intro k hk
    exact hchain.arrival_eq hpos hk
  · intro lines hsame
    exact Score.ofTokens_exact hpos (hchain.rewritten hpos hsame)

/-- At 120 beats per minute two beats last a second, and a bar and a fourth
    last 17 eighths of one. -/
theorem beats_and_bars_add_up :
    let source := "#bpm 120 #offset 3 norm U 2 norm L 1;0|1".toList
    let score : Score :=
      { tempo := .bare 120
        start := .bare 3
        lines := [⟨.normal, .up, ⟨none, 2, none⟩⟩, ⟨.normal, .left, ⟨some 1, 0, some 1⟩⟩] }
    let chart : Chart Rat :=
      { tempo := 120
        start := 3
        events := [{ arrival := 4, side := .up }, { arrival := 49 / 8, side := .left }] }
    ∃ played, Chart.ofText source = .ok played ∧ played.tempo.isFinite ∧ played.start.isFinite ∧
      Token.ofText source = .ok score.tokens ∧
      Chart.ofTokens (score.tokens.map Token.exact) = .ok chart ∧
      (chart.start :: chart.events.map Event.arrival).Pairwise (· ≤ ·) := by
  intro source score chart
  let played : Chart Float :=
    { tempo := 120.0
      start := 3.0
      events := [{ arrival := 4.0, side := .up }, { arrival := 6.125, side := .left }] }
  have hread : Chart.ofText source = .ok played := eq_ok_of_toOption (by decide +kernel)
  have htokens : Token.ofText source = .ok score.tokens := eq_ok_of_toOption (by decide +kernel)
  have hexact : Chart.ofTokens (score.tokens.map Token.exact) = .ok chart :=
    eq_ok_of_toOption (by decide +kernel)
  obtain ⟨score', htokens', -, chart', hexact', -, -, -, -, hsorted, -⟩ :=
    arrivals_add_up hread (by decide +kernel) (by decide +kernel)
  rw [← Except.ok.inj (htokens.symm.trans htokens')] at hexact'
  obtain rfl := Except.ok.inj (hexact.symm.trans hexact')
  exact ⟨played, hread, by decide +kernel, by decide +kernel, htokens, hexact, hsorted⟩

end BeatShield
