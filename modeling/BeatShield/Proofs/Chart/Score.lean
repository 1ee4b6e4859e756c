import BeatShield.Chart.Basic
import BeatShield.Number.Binary

/-! # Score — what a chart's tokens spell, apart from how they are read

    A score is the syntax tree of a chart: two numbers for its header and
    one line for each projectile.

      * `Score.tokens` writes a score.
      * `Score.Admissible` says which scores have a meaning: the tempo is
        positive, and every integer that is computed with has a double.
      * `Score.chart` is that meaning, with the arrivals chained from left
        to right.

    Reading (`Chart.ofTokens`) is compared with these three. -/

namespace BeatShield

/-- A number of a header: a decimal literal, or an offset that has beats
    alone. -/
inductive HeaderNumber where
  | literal (value : Float)
  | bare (beats : Int)

/-- A projectile in a score. -/
structure Line where
  kind : EventKind
  side : Direction
  offset : Offset

/-- A chart as it is written. -/
structure Score where
  tempo : HeaderNumber
  start : HeaderNumber
  lines : List Line

namespace HeaderNumber

/-- The token of a header number. -/
def token : HeaderNumber → Token Float
  | literal value => .number value
  | bare beats => .timeOffset { fourths := none, beats, bars := none }

/-- The double that a header number stands for. -/
def value : HeaderNumber → Float
  | literal value => value
  | bare beats => nearestDouble beats

/-- A literal is a double already; a bare integer has to have one. -/
def Fits : HeaderNumber → Prop
  | literal _ => True
  | bare beats => FitsDouble beats

end HeaderNumber

namespace Offset

/-- Whether the three parts of an offset have doubles. -/
def Fits (o : Offset) : Prop :=
  FitsDouble (o.fourths.getD 0) ∧ FitsDouble o.beats ∧ FitsDouble (o.bars.getD 0)

/-- The seconds that an offset lasts at a tempo: a beat lasts `60 / tempo`,
    a fourth a quarter of that and a bar four times as long. -/
def duration (o : Offset) (tempo : Float) : Float :=
  let beat := 60.0 / tempo
  nearestDouble (o.fourths.getD 0) * beat / 4.0 + nearestDouble o.beats * beat
    + nearestDouble (o.bars.getD 0) * beat * 4.0

end Offset

/-- The three tokens of a line. -/
def Line.tokens {α : Type} (line : Line) : List (Token α) :=
  [.eventType line.kind, .direction line.side, .timeOffset line.offset]

/-- The offset of every line is among the tokens. -/
theorem Line.offset_mem_tokens {α : Type} {line : Line} {lines : List Line} (h : line ∈ lines) :
    Token.timeOffset line.offset ∈ lines.flatMap (Line.tokens (α := α)) :=
  List.mem_flatMap.mpr ⟨line, h, List.mem_cons_of_mem _ (List.mem_cons_of_mem _ List.mem_cons_self)⟩

/-- The projectiles of some lines.  Each arrives its offset after the one
    before it, the first after the time that is given. -/
def Line.events (tempo : Float) : Float → List Line → List (Event Float)
  | _, [] => []
  | before, line :: later =>
      let arrival := before + line.offset.duration tempo
      { arrival, side := line.side, kind := line.kind } :: Line.events tempo arrival later

namespace Score

/-- The tokens of a score. -/
def tokens (score : Score) : List (Token Float) :=
  [.tempoMarker, score.tempo.token, .offsetMarker, score.start.token]
    ++ score.lines.flatMap Line.tokens

/-- Whether a score has a meaning. -/
structure Admissible (score : Score) : Prop where
  tempo_fits : score.tempo.Fits
  tempo_pos : 0.0 < score.tempo.value
  start_fits : score.start.Fits
  offset_fits : ∀ line ∈ score.lines, line.offset.Fits

/-- The chart that a score means. -/
def chart (score : Score) : Chart Float :=
  { tempo := score.tempo.value
    start := score.start.value
    events := Line.events score.tempo.value score.start.value score.lines }

end Score

end BeatShield
