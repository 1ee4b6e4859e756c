import BeatShield.Proofs.Chart.Score
import BeatShield.Proofs.Checked
import BeatShield.Proofs.Number.Positive

/-! # Grammar — reading accepts exactly the admissible scores

    `Chart.ofTokens` is compared with the syntax tree of `Score`.  The
    route:

      * each check of a token succeeds on the tokens of one shape, and
        `Token.accept` takes that token off the list;
      * the events are read line by line, and `Chained` records the delay
        that every line adds (`readEvents_eq_ok_iff`, in any arithmetic);
      * among the doubles a delay exists exactly when its integers fit,
        and it is `Offset.duration` then, because a positive tempo can be
        divided by (`chained_iff`). -/

namespace BeatShield

open Checked

/-! ## Single tokens -/

namespace Token

variable {α β : Type}

/-- A reader of one token takes the first and leaves the others. -/
theorem accept_eq_ok_iff {check : Token α → Except (ChartError α) β}
    {tokens rest : List (Token α)} {b : β} :
    accept check tokens = .ok (b, rest) ↔ ∃ t, tokens = t :: rest ∧ check t = .ok b := by
  cases tokens with
  | nil =>
      constructor
      · intro h; exact nomatch h
      · rintro ⟨t, ht, -⟩; exact nomatch ht
  | cons t later =>
      show (check t).map (·, later) = .ok (b, rest) ↔ _
      rw [map_eq_ok]
      constructor
      · rintro ⟨b', hb, heq⟩
        cases heq
        exact ⟨t, rfl, hb⟩
      · rintro ⟨t', ht, hb⟩
        cases ht
        exact ⟨b, hb, rfl⟩

/-- A token is required by its kind alone. -/
theorem require_eq_ok_iff {kind : TokenKind} {t u : Token α} :
    require kind t = .ok u ↔ t.kind = kind ∧ t = u := by
  by_cases hk : t.kind = kind
  · simp only [require, if_pos hk]
    constructor
    · intro h; exact ⟨hk, Except.ok.inj h⟩
    · rintro ⟨-, h⟩; exact congrArg Except.ok h
  · simp only [require, if_neg hk]
    constructor
    · intro h; exact nomatch h
    · rintro ⟨h, -⟩; exact absurd h hk

/-- A marker is accepted when it comes first, being the only token of its
    kind. -/
theorem accept_marker_eq_ok_iff (marker : Token α)
    (honly : ∀ t : Token α, t.kind = marker.kind → t = marker) {tokens rest : List (Token α)} :
    (∃ t, accept (require marker.kind) tokens = .ok (t, rest)) ↔ tokens = marker :: rest := by
  constructor
  · rintro ⟨t, h⟩
    obtain ⟨m, htokens, hm⟩ := accept_eq_ok_iff.mp h
    rw [honly m (require_eq_ok_iff.mp hm).1] at htokens
    exact htokens
  · rintro rfl
    exact ⟨marker, accept_eq_ok_iff.mpr ⟨marker, rfl, require_eq_ok_iff.mpr ⟨rfl, rfl⟩⟩⟩

theorem eq_tempoMarker (t : Token α) (h : t.kind = .tempoMarker) : t = .tempoMarker := by
  cases t <;> first | rfl | exact nomatch h

theorem eq_offsetMarker (t : Token α) (h : t.kind = .offsetMarker) : t = .offsetMarker := by
  cases t <;> first | rfl | exact nomatch h

/-- Only the kind of an event is read as one. -/
theorem asEventKind_eq_ok_iff {t : Token α} {kind : EventKind} :
    t.asEventKind = .ok kind ↔ t = .eventType kind := by
  cases t <;> simp [asEventKind]

theorem asDirection_eq_ok_iff {t : Token α} {side : Direction} :
    t.asDirection = .ok side ↔ t = .direction side := by
  cases t <;> simp [asDirection]

/-- Only an offset is read as one. -/
theorem asOffset_eq_ok_iff {t : Token α} {offset : Offset} :
    t.asOffset = .ok offset ↔ t = .timeOffset offset := by
  cases t <;> simp [asOffset]

end Token

/-! ## Lines and their delays, in any arithmetic -/

variable {α : Type} [Scalar α]

/-- Events that arrive one after the other, each the length of its line's
    offset after the one before. -/
inductive Chained (tempo : α) : α → List Line → List (Event α) → Prop where
  | nil (before : α) : Chained tempo before [] []
  | cons {before delay : α} {line : Line} {lines : List Line} {events : List (Event α)}
      (hdelay : line.offset.seconds tempo = .ok delay)
      (hlater : Chained tempo (before + delay) lines events) :
      Chained tempo before (line :: lines)
        ({ arrival := before + delay, side := line.side, kind := line.kind } :: events)

namespace Chart

/-- One round of reading: three tokens make a line and an event. -/
private theorem readEvents_cons (tempo cursor : α) (t u v : Token α)
    (rest : List (Token α)) :
    readEvents tempo cursor (t :: u :: v :: rest) = (do
      let kind ← t.asEventKind
      let side ← u.asDirection
      let offset ← v.asOffset
      let delay ← (offset.seconds tempo).mapError .number
      let event : Event α := { arrival := cursor + delay, side, kind }
      return event :: (← readEvents tempo event.arrival rest)) := rfl

/-- Whatever is read as events was written as lines. -/
theorem chained_of_readEvents {tempo cursor : α} {tokens : List (Token α)}
    {events : List (Event α)} (h : readEvents tempo cursor tokens = .ok events) :
    ∃ lines : List Line, tokens = lines.flatMap Line.tokens ∧
      Chained tempo cursor lines events := by
  fun_induction readEvents tempo cursor tokens generalizing events with
  | case1 cursor =>
      cases h
      exact ⟨[], rfl, .nil cursor⟩
  -- a line that breaks off after one or two tokens is refused at its end
  | case2 cursor t =>
      obtain ⟨_, -, h⟩ := bind_eq_ok.mp h
      exact nomatch h
  | case3 cursor t u =>
      obtain ⟨_, -, h⟩ := bind_eq_ok.mp h
      obtain ⟨_, -, h⟩ := bind_eq_ok.mp h
      exact nomatch h
  | case4 cursor t u v rest ih =>
      obtain ⟨kind, ht, h1⟩ := bind_eq_ok.mp h
      obtain ⟨side, hu, h2⟩ := bind_eq_ok.mp h1
      obtain ⟨offset, hv, h3⟩ := bind_eq_ok.mp h2
      obtain ⟨delay, hd, h4⟩ := bind_eq_ok.mp h3
      obtain ⟨later, hl, h5⟩ := bind_eq_ok.mp h4
      have hevents := Except.ok.inj h5
      rw [Token.asEventKind_eq_ok_iff] at ht
      rw [Token.asDirection_eq_ok_iff] at hu
      rw [Token.asOffset_eq_ok_iff] at hv
      rw [mapError_eq_ok] at hd
      obtain ⟨lines, htokens, hchain⟩ := ih kind side delay hl
      refine ⟨⟨kind, side, offset⟩ :: lines, ?_, ?_⟩
      · rw [ht, hu, hv, htokens]; rfl
      · rw [← hevents]
        exact .cons hd hchain

/-- Whatever is written as lines is read as events. -/
theorem readEvents_of_chained {tempo cursor : α} {lines : List Line}
    {events : List (Event α)} (h : Chained tempo cursor lines events) :
    readEvents tempo cursor (lines.flatMap Line.tokens) = .ok events := by
  induction h with
  | nil cursor => rfl
  | @cons cursor delay line lines events hdelay _ ih =>
      show readEvents tempo cursor (.eventType line.kind :: .direction line.side
        :: .timeOffset line.offset :: lines.flatMap Line.tokens) = _
      rw [readEvents_cons]
      have hd : (line.offset.seconds tempo).mapError (ChartError.number (α := α))
          = .ok delay := mapError_eq_ok.mpr hdelay
      exact bind_eq_ok.mpr ⟨line.kind, rfl, bind_eq_ok.mpr ⟨line.side, rfl, bind_eq_ok.mpr
        ⟨line.offset, rfl, bind_eq_ok.mpr ⟨delay, hd, bind_eq_ok.mpr ⟨events, ih, rfl⟩⟩⟩⟩⟩

/-- Events are read exactly from chained lines. -/
theorem readEvents_eq_ok_iff {tempo cursor : α} {tokens : List (Token α)}
    {events : List (Event α)} :
    readEvents tempo cursor tokens = .ok events ↔
      ∃ lines : List Line, tokens = lines.flatMap Line.tokens ∧
        Chained tempo cursor lines events := by
  constructor
  · exact chained_of_readEvents
  · rintro ⟨lines, rfl, h⟩
    exact readEvents_of_chained h

/-- A tempo clause is its marker and a number above zero. -/
theorem readTempo_eq_ok_iff {tokens rest : List (Token α)} {tempo : α} :
    readTempo tokens = .ok (tempo, rest) ↔
      ∃ t : Token α, tokens = .tempoMarker :: t :: rest ∧ t.asNumber = .ok tempo ∧
        0.0 < tempo := by
  constructor
  · intro h
    obtain ⟨⟨m, afterMarker⟩, hm, h1⟩ := bind_eq_ok.mp h
    obtain ⟨⟨x, rest'⟩, hx, h2⟩ := bind_eq_ok.mp h1
    -- what the reader does after the number is to check its sign
    have hguard : (if 0.0 < x then pure (x, rest')
        else throw (.unexpectedToken (.number x)) : Except (ChartError α) _)
        = .ok (tempo, rest) := h2
    have htokens := (Token.accept_marker_eq_ok_iff .tempoMarker Token.eq_tempoMarker).mp ⟨m, hm⟩
    obtain ⟨t, hafter, ht⟩ := Token.accept_eq_ok_iff.mp hx
    by_cases hpos : 0.0 < x
    · rw [if_pos hpos] at hguard
      cases hguard
      exact ⟨t, by rw [htokens, hafter], ht, hpos⟩
    · rw [if_neg hpos] at hguard
      exact nomatch hguard
  · rintro ⟨t, rfl, ht, hpos⟩
    refine bind_eq_ok.mpr ⟨(.tempoMarker, t :: rest), rfl, ?_⟩
    refine bind_eq_ok.mpr ⟨(tempo, rest), Token.accept_eq_ok_iff.mpr ⟨t, rfl, ht⟩, ?_⟩
    exact if_pos hpos

/-- The line of the start is a marker and a number. -/
theorem readStart_eq_ok_iff {tokens rest : List (Token α)} {start : α} :
    readStart tokens = .ok (start, rest) ↔
      ∃ t : Token α, tokens = .offsetMarker :: t :: rest ∧ t.asNumber = .ok start := by
  constructor
  · intro h
    obtain ⟨⟨m, afterMarker⟩, hm, hx⟩ := bind_eq_ok.mp h
    have htokens := (Token.accept_marker_eq_ok_iff .offsetMarker Token.eq_offsetMarker).mp ⟨m, hm⟩
    obtain ⟨t, hafter, ht⟩ := Token.accept_eq_ok_iff.mp hx
    exact ⟨t, by rw [htokens, hafter], ht⟩
  · rintro ⟨t, rfl, ht⟩
    refine bind_eq_ok.mpr ⟨(.offsetMarker, t :: rest), rfl, ?_⟩
    exact Token.accept_eq_ok_iff.mpr ⟨t, rfl, ht⟩

/-- A chart is read exactly from two clauses and lines. -/
theorem ofTokens_eq_ok_iff_chained {tokens : List (Token α)} {chart : Chart α} :
    ofTokens tokens = .ok chart ↔
      ∃ (t u : Token α) (lines : List Line),
        tokens = .tempoMarker :: t :: .offsetMarker :: u :: lines.flatMap Line.tokens ∧
        t.asNumber = .ok chart.tempo ∧ 0.0 < chart.tempo ∧ u.asNumber = .ok chart.start ∧
        Chained chart.tempo chart.start lines chart.events := by
  constructor
  · intro h
    -- each reader takes its part of the list and leaves the rest to the next
    obtain ⟨⟨tempo, afterTempo⟩, htempo, h1⟩ := bind_eq_ok.mp h
    obtain ⟨⟨start, afterStart⟩, hstart, h2⟩ := bind_eq_ok.mp h1
    obtain ⟨events, hevents, h3⟩ := bind_eq_ok.mp h2
    have hchart := Except.ok.inj h3
    obtain ⟨t, htokens, ht, hpos⟩ := readTempo_eq_ok_iff.mp htempo
    obtain ⟨u, hafter, hu⟩ := readStart_eq_ok_iff.mp hstart
    obtain ⟨lines, hlines, hchain⟩ := readEvents_eq_ok_iff.mp hevents
    rw [← hchart]
    exact ⟨t, u, lines, by rw [htokens, hafter, hlines], ht, hpos, hu, hchain⟩
  · rintro ⟨t, u, lines, rfl, ht, hpos, hu, hchain⟩
    refine bind_eq_ok.mpr ⟨(chart.tempo, _), readTempo_eq_ok_iff.mpr ⟨t, rfl, ht, hpos⟩, ?_⟩
    refine bind_eq_ok.mpr ⟨(chart.start, _), readStart_eq_ok_iff.mpr ⟨u, rfl, hu⟩, ?_⟩
    exact bind_eq_ok.mpr ⟨chart.events, readEvents_of_chained hchain, rfl⟩

end Chart

/-! ## Doubles -/

/-- An integer is converted if a double is large enough. -/
theorem ofInt_float (n : Int) : (Scalar.ofInt n : Except NumberError Float)
    = if FitsDouble n then .ok (nearestDouble n) else .error .intTooLarge := rfl

theorem asNumber_bare (beats : Int) :
    (HeaderNumber.bare beats).token.asNumber = (Scalar.ofInt beats).mapError .number := rfl

/-- What it is converted to is the nearest double. -/
theorem ofInt_eq_ok_iff {n : Int} {x : Float} :
    Scalar.ofInt n = .ok x ↔ FitsDouble n ∧ nearestDouble n = x := by
  rw [ofInt_float]
  by_cases hn : FitsDouble n
  · rw [if_pos hn]
    constructor
    · intro h; exact ⟨hn, Except.ok.inj h⟩
    · rintro ⟨-, h⟩; exact congrArg Except.ok h
  · rw [if_neg hn]
    constructor
    · intro h; exact nomatch h
    · rintro ⟨h, -⟩; exact absurd h hn

/-- An integer is refused for its size and for nothing else. -/
theorem ofInt_eq_error_iff {n : Int} {e : NumberError} :
    (Scalar.ofInt n : Except NumberError Float) = .error e ↔
      ¬ FitsDouble n ∧ .intTooLarge = e := by
  rw [ofInt_float]
  by_cases hn : FitsDouble n
  · rw [if_pos hn]
    constructor
    · intro h; exact nomatch h
    · rintro ⟨h, -⟩; exact absurd hn h
  · rw [if_neg hn]
    constructor
    · intro h; exact ⟨hn, Except.error.inj h⟩
    · rintro ⟨-, h⟩; exact congrArg Except.error h

/-- The tokens that serve as numbers are those of header numbers that
    fit. -/
theorem asNumber_eq_ok_iff {t : Token Float} {x : Float} :
    t.asNumber = .ok x ↔ ∃ n : HeaderNumber, n.token = t ∧ n.Fits ∧ n.value = x := by
  constructor
  · intro h
    cases t with
    | number value => exact ⟨.literal value, rfl, trivial, Except.ok.inj h⟩
    | timeOffset offset =>
        obtain ⟨fourths, beats, bars⟩ := offset
        cases fourths with
        | some _ => exact nomatch h
        | none =>
            cases bars with
            | some _ => exact nomatch h
            | none =>
                -- only beats are left, and they become a double if they have one
                obtain ⟨hfits, hvalue⟩ :=
                  ofInt_eq_ok_iff.mp (mapError_eq_ok.mp ((asNumber_bare beats).symm.trans h))
                exact ⟨.bare beats, rfl, hfits, hvalue⟩
    | tempoMarker => exact nomatch h
    | offsetMarker => exact nomatch h
    | direction _ => exact nomatch h
    | eventType _ => exact nomatch h
  · rintro ⟨n, rfl, hfits, hvalue⟩
    cases n with
    | literal value => exact congrArg Except.ok hvalue
    | bare beats =>
        rw [asNumber_bare, mapError_eq_ok]
        exact ofInt_eq_ok_iff.mpr ⟨hfits, hvalue⟩

/-- At a positive tempo an offset has a length exactly when its parts fit. -/
theorem seconds_eq_ok_iff {o : Offset} {tempo delay : Float} (hpos : 0.0 < tempo) :
    o.seconds tempo = .ok delay ↔ o.Fits ∧ o.duration tempo = delay := by
  have hbeat : Tempo.beatLength tempo = .ok (60.0 / tempo) := divide_of_pos hpos
  constructor
  · intro h
    obtain ⟨beat, hb, h1⟩ := bind_eq_ok.mp h
    obtain ⟨fourths, hf, h2⟩ := bind_eq_ok.mp h1
    obtain ⟨beats, hn, h3⟩ := bind_eq_ok.mp h2
    obtain ⟨bars, hm, h4⟩ := bind_eq_ok.mp h3
    -- each part is converted on its own, so each has to fit on its own
    obtain ⟨fitsFourths, hfourths⟩ := ofInt_eq_ok_iff.mp hf
    obtain ⟨fitsBeats, hbeats⟩ := ofInt_eq_ok_iff.mp hn
    obtain ⟨fitsBars, hbars⟩ := ofInt_eq_ok_iff.mp hm
    have hbeat' : 60.0 / tempo = beat := Except.ok.inj (hbeat.symm.trans hb)
    refine ⟨⟨fitsFourths, fitsBeats, fitsBars⟩, ?_⟩
    rw [← Except.ok.inj h4, Offset.duration, hfourths, hbeats, hbars, hbeat']
  · rintro ⟨⟨fitsFourths, fitsBeats, fitsBars⟩, rfl⟩
    refine bind_eq_ok.mpr ⟨_, hbeat, ?_⟩
    refine bind_eq_ok.mpr ⟨_, ofInt_eq_ok_iff.mpr ⟨fitsFourths, rfl⟩, ?_⟩
    refine bind_eq_ok.mpr ⟨_, ofInt_eq_ok_iff.mpr ⟨fitsBeats, rfl⟩, ?_⟩
    exact bind_eq_ok.mpr ⟨_, ofInt_eq_ok_iff.mpr ⟨fitsBars, rfl⟩, rfl⟩

/-- At a positive tempo an offset is without a length only because a part
    of it is too large. -/
theorem seconds_eq_error_iff {o : Offset} {tempo : Float} (hpos : 0.0 < tempo)
    {cause : NumberError} : o.seconds tempo = .error cause ↔ ¬ o.Fits ∧ .intTooLarge = cause := by
  have hbeat : Tempo.beatLength tempo = .ok (60.0 / tempo) := divide_of_pos hpos
  have hcauses : ∀ cause, o.seconds tempo = .error cause → ¬ o.Fits ∧ .intTooLarge = cause := by
    intro cause h
    rcases bind_eq_error.mp h with h | ⟨_, -, h⟩
    · rw [hbeat] at h
      exact nomatch h
    rcases bind_eq_error.mp h with h | ⟨_, -, h⟩
    · obtain ⟨hlarge, hcause⟩ := ofInt_eq_error_iff.mp h
      exact ⟨fun hfits => hlarge hfits.1, hcause⟩
    rcases bind_eq_error.mp h with h | ⟨_, -, h⟩
    · obtain ⟨hlarge, hcause⟩ := ofInt_eq_error_iff.mp h
      exact ⟨fun hfits => hlarge hfits.2.1, hcause⟩
    rcases bind_eq_error.mp h with h | ⟨_, -, h⟩
    · obtain ⟨hlarge, hcause⟩ := ofInt_eq_error_iff.mp h
      exact ⟨fun hfits => hlarge hfits.2.2, hcause⟩
    · exact nomatch h
  constructor
  · exact hcauses cause
  · rintro ⟨hlarge, rfl⟩
    -- without a length it is refused, and there is only one cause
    cases h : o.seconds tempo with
    | ok delay => exact absurd ((seconds_eq_ok_iff hpos).mp h).1 hlarge
    | error cause => rw [(hcauses cause h).2]

/-- At a positive tempo the delays of lines exist exactly when all offsets
    fit, and then the events are those of the score. -/
theorem chained_iff {tempo before : Float} {lines : List Line} {events : List (Event Float)}
    (hpos : 0.0 < tempo) :
    Chained tempo before lines events ↔
      (∀ line ∈ lines, line.offset.Fits) ∧ Line.events tempo before lines = events := by
  constructor
  · intro h
    -- along the chain every delay exists, and it is the duration of its line
    induction h with
    | nil before => exact ⟨fun line hline => (nomatch hline), rfl⟩
    | @cons before delay line lines events hdelay _ ih =>
        obtain ⟨hfits, hduration⟩ := (seconds_eq_ok_iff hpos).mp hdelay
        obtain ⟨hall, hevents⟩ := ih
        refine ⟨List.forall_mem_cons.mpr ⟨hfits, hall⟩, ?_⟩
        rw [Line.events, hduration, hevents]
  · rintro ⟨hall, rfl⟩
    -- the other way the chain is built line by line, from whatever time the
    -- line before ends
    induction lines generalizing before with
    | nil => exact .nil before
    | cons line lines ih =>
        obtain ⟨hfits, hrest⟩ := List.forall_mem_cons.mp hall
        exact .cons ((seconds_eq_ok_iff hpos).mpr ⟨hfits, rfl⟩) (ih hrest)

/-- Reading a token list succeeds exactly on the tokens of an admissible
    score, and its result is the chart that the score means. -/
theorem ofTokens_eq_ok_iff (tokens : List (Token Float)) (chart : Chart Float) :
    Chart.ofTokens tokens = .ok chart ↔
      ∃ score : Score, score.tokens = tokens ∧ score.Admissible ∧ score.chart = chart := by
  rw [Chart.ofTokens_eq_ok_iff_chained]
  constructor
  · rintro ⟨t, u, lines, rfl, ht, hpos, hu, hchain⟩
    obtain ⟨tempo, rfl, htempo, htempo'⟩ := asNumber_eq_ok_iff.mp ht
    obtain ⟨start, rfl, hstart, hstart'⟩ := asNumber_eq_ok_iff.mp hu
    obtain ⟨hfits, hevents⟩ := (chained_iff hpos).mp hchain
    refine ⟨⟨tempo, start, lines⟩, rfl, ⟨htempo, ?_, hstart, hfits⟩, ?_⟩
    · -- the tempo that is checked is the one that was read
      show 0.0 < tempo.value
      rw [htempo']
      exact hpos
    · rw [Score.chart, htempo', hstart', hevents]
  · rintro ⟨score, rfl, hadm, rfl⟩
    refine ⟨score.tempo.token, score.start.token, score.lines, rfl, ?_, hadm.tempo_pos, ?_, ?_⟩
    · exact asNumber_eq_ok_iff.mpr ⟨score.tempo, rfl, hadm.tempo_fits, rfl⟩
    · exact asNumber_eq_ok_iff.mpr ⟨score.start, rfl, hadm.start_fits, rfl⟩
    · exact (chained_iff hadm.tempo_pos).mpr ⟨hadm.offset_fits, rfl⟩

end BeatShield
