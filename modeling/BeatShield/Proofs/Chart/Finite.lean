import BeatShield.Proofs.Chart.Atom
import BeatShield.Proofs.Chart.Grammar
import BeatShield.Proofs.Number.Bounds

/-! # Finite — charts without infinities and NaN

    Arrivals are sums, and a sum is finite only if both its parts are.  So
    a number that is not finite shows in all later arrivals, and the last
    one tells whether any is (`Chart.finite_iff`).

    At a tempo of one beat per minute or more, durations of a sensible size
    are far below the largest double, and adding them up cannot reach it:
    from some time on the sums stand still (`Chart.finite_of_moderate`). -/

namespace BeatShield

open Checked Double

/-! ## The last arrival tells -/

namespace Chart

/-- Whether all numbers of a chart are finite. -/
structure Finite (chart : Chart Float) : Prop where
  tempo : chart.tempo.isFinite
  start : chart.start.isFinite
  arrivals : ∀ event ∈ chart.events, event.arrival.isFinite

/-- When the last projectile arrives; the start, if there is none. -/
def endTime {α : Type} (chart : Chart α) : α :=
  (chart.events.map Event.arrival).getLastD chart.start

end Chart

/-- If the last of chained arrivals is finite, so are all before it. -/
theorem Chained.finite {tempo before : Float} {lines : List Line} {events : List (Event Float)}
    (h : Chained tempo before lines events)
    (hend : ((events.map Event.arrival).getLastD before).isFinite) :
    before.isFinite ∧ ∀ event ∈ events, event.arrival.isFinite := by
  induction h with
  | nil before => exact ⟨hend, nofun⟩
  | cons hdelay _ ih =>
      rw [List.map_cons, List.getLastD_cons] at hend
      obtain ⟨harrival, hlater⟩ := ih hend
      exact ⟨(isFinite_of_add harrival).1, List.forall_mem_cons.mpr ⟨harrival, hlater⟩⟩

/-- The last arrival, or the time before if there is none, is one of them. -/
theorem isFinite_getLastD {start : Float} {events : List (Event Float)} (hstart : start.isFinite)
    (h : ∀ event ∈ events, event.arrival.isFinite) :
    ((events.map Event.arrival).getLastD start).isFinite := by
  induction events generalizing start with
  | nil => exact hstart
  | cons event events ih =>
      obtain ⟨hevent, hevents⟩ := List.forall_mem_cons.mp h
      rw [List.map_cons, List.getLastD_cons]
      exact ih hevent hevents

/-- A chart is finite exactly if its tempo and its last arrival are. -/
theorem Chart.finite_iff {tokens : List (Token Float)} {chart : Chart Float}
    (h : Chart.ofTokens tokens = .ok chart) :
    chart.Finite ↔ chart.tempo.isFinite ∧ chart.endTime.isFinite := by
  obtain ⟨_, _, lines, -, -, -, -, hchain⟩ := Chart.ofTokens_eq_ok_iff_chained.mp h
  constructor
  · intro hfinite
    exact ⟨hfinite.tempo, isFinite_getLastD hfinite.start hfinite.arrivals⟩
  · rintro ⟨htempo, hend⟩
    obtain ⟨hstart, harrivals⟩ := hchain.finite hend
    exact ⟨htempo, hstart, harrivals⟩

/-! ## Sensible numbers -/

/-- A bound on the numbers of offsets, far beyond any song. -/
def Offset.ceiling : Int := twoTo 900

/-- The times up to 2^1000 seconds. -/
def reach : Float := nearestDouble (twoTo 1000)

/-- Whether the parts of an offset are of a sensible size. -/
structure Offset.Moderate (o : Offset) : Prop where
  fourths : o.fourths.getD 0 ≤ ceiling
  beats : o.beats ≤ ceiling
  bars : o.bars.getD 0 ≤ ceiling

/-- Sensible whole numbers are converted to sensible doubles. -/
theorem within_nearestDouble {n : Int} (hn : 0 ≤ n) (hle : n ≤ Offset.ceiling) :
    Within 0.0 (nearestDouble Offset.ceiling) (nearestDouble n) where
  low_finite := rfl
  high_finite := by decide +kernel
  low := (rounds_nearestDouble n).ge rfl (value_zero.trans_le (mod_cast hn))
  high := (rounds_nearestDouble n).mono (rounds_nearestDouble _) (mod_cast hle)

/-- No offset of a sensible size lasts longer than this at one beat per
    minute. -/
def longestDelay : Float := nearestDouble (twoTo 910)

/-- Sensible offsets have sensible durations, unless the tempo is very slow. -/
theorem within_duration {o : Offset} {tempo : Float} (hnatural : o.Natural)
    (hmoderate : o.Moderate) (htempo : tempo.isFinite) (hslow : 1.0 ≤ tempo) :
    Within 0.0 longestDelay (o.duration tempo) := by
  have hminute : Within 0.0 60.0 60.0 := by decide +kernel
  have hbeat : Within 0.0 60.0 (60.0 / tempo) :=
    hminute.div 1.0 htempo hslow rfl (by decide +kernel) (by decide +kernel)
  -- a beat is less than 2^6 seconds, and a bar less than 2^8
  have hpart : ∀ n, 0 ≤ n → n ≤ Offset.ceiling →
      Within 0.0 (nearestDouble (twoTo 906)) (nearestDouble n * (60.0 / tempo)) :=
    fun n hn hle => (within_nearestDouble hn hle).mul hbeat (by decide +kernel)
  have hquarter : Within 0.0 (nearestDouble (twoTo 904))
      (nearestDouble (o.fourths.getD 0) * (60.0 / tempo) / 4.0) :=
    (hpart _ hnatural.fourths_getD_nonneg hmoderate.fourths).div 4.0 rfl (by decide +kernel) rfl
      (by decide +kernel) (by decide +kernel)
  have hbeats := hpart o.beats hnatural.beats hmoderate.beats
  have hfour : Within 0.0 4.0 4.0 := by decide +kernel
  have hbars : Within 0.0 (nearestDouble (twoTo 908))
      (nearestDouble (o.bars.getD 0) * (60.0 / tempo) * 4.0) :=
    (hpart _ hnatural.bars_getD_nonneg hmoderate.bars).mul hfour (by decide +kernel)
  have hshort : Within 0.0 (nearestDouble (twoTo 907))
      (nearestDouble (o.fourths.getD 0) * (60.0 / tempo) / 4.0
        + nearestDouble o.beats * (60.0 / tempo)) := hquarter.add hbeats (by decide +kernel)
  exact hshort.add hbars (by decide +kernel)

/-- Adding such a duration never leads beyond what is within reach. -/
theorem Chained.within {tempo before : Float} {lines : List Line} {events : List (Event Float)}
    (h : Chained tempo before lines events) (hpos : 0.0 < tempo) (htempo : tempo.isFinite)
    (hslow : 1.0 ≤ tempo)
    (hbefore : Within (-reach) reach before)
    (hlines : ∀ line ∈ lines, line.offset.Natural ∧ line.offset.Moderate) :
    ∀ event ∈ events, Within (-reach) reach event.arrival := by
  induction h with
  | nil before => exact nofun
  | @cons before delay line lines events hdelay _ ih =>
      obtain ⟨⟨hnatural, hmoderate⟩, hlater⟩ := List.forall_mem_cons.mp hlines
      obtain ⟨-, rfl⟩ := (seconds_eq_ok_iff hpos).mp hdelay
      have hdelay := within_duration hnatural hmoderate htempo hslow
      have harrival : Within (-reach) reach (before + line.offset.duration tempo) :=
        hbefore.add hdelay (by decide +kernel)
      exact List.forall_mem_cons.mpr ⟨harrival, ih harrival hlater⟩

/-! ## Sensible charts -/

/-- A source whose offsets are of a sensible size, bare integers in the
    header included. -/
def Moderate (source : List Char) : Prop :=
  ∀ tokens, Token.ofText source = .ok tokens →
    ∀ o : Offset, Token.timeOffset o ∈ tokens → o.Moderate

/-- However many projectiles a chart has, no sum leads beyond the finite
    doubles if it starts within reach and its offsets are moderate. -/
theorem Chart.finite_of_moderate {source : List Char} {chart : Chart Float}
    (h : Chart.ofText source = .ok chart) (htempo : chart.tempo.isFinite)
    (hslow : 1.0 ≤ chart.tempo) (hstart : Within (-reach) reach chart.start)
    (hmoderate : Moderate source) : chart.Finite := by
  obtain ⟨tokens, htokens, hchart⟩ := bind_eq_ok.mp h
  obtain ⟨t, u, lines, rfl, -, hpos, -, hchain⟩ := Chart.ofTokens_eq_ok_iff_chained.mp hchart
  have hlines : ∀ line ∈ lines, line.offset.Natural ∧ line.offset.Moderate := by
    intro line hline
    have hmem : Token.timeOffset line.offset ∈
        (Token.tempoMarker :: t :: .offsetMarker :: u :: lines.flatMap Line.tokens) :=
      List.mem_append_right [Token.tempoMarker, t, .offsetMarker, u] (Line.offset_mem_tokens hline)
    exact ⟨Token.natural_of_ofText htokens hmem, hmoderate _ htokens _ hmem⟩
  have harrivals := hchain.within hpos htempo hslow hstart hlines
  exact ⟨htempo, hstart.isFinite, fun event hevent => (harrivals event hevent).isFinite⟩

end BeatShield
