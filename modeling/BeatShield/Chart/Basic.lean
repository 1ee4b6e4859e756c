import BeatShield.Chart.Token

/-! # Chart — the projectiles of a level and when they arrive

    A chart is a header and a list of events:

        #bpm <number>
        #offset <number>
        norm <U|D|L|R> <[fourths;]beats[|bars]>
        ...

    Each event arrives its offset after the previous one, the first after
    the start offset.  A bare offset such as `120` also serves as a
    number.

      * `Token.accept` takes one token off a list and checks it.
      * `Chart.ofTokens` follows the grammar above and chains the
        arrivals from left to right.
      * `Chart.ofText` first reads all atoms, so that an atom that is no
        token is reported before any misplaced one. -/

namespace BeatShield

/-- A projectile: when it crosses the shield ring, in seconds from the
    start of the chart, and the side it comes from. -/
structure Event (α : Type) where
  arrival : α
  side : Direction
  kind : EventKind := .normal
  deriving DecidableEq, Repr

/-- A compiled chart. -/
structure Chart (α : Type) where
  tempo : α
  start : α
  events : List (Event α)
  deriving DecidableEq, Repr

/-! ## Taking tokens -/

namespace Token

variable {α : Type}

/-- The first token, if it passes a check, and the tokens after it. -/
def accept {β : Type} (check : Token α → Except (ChartError α) β) :
    List (Token α) → Except (ChartError α) (β × List (Token α))
  | [] => .error .unexpectedEnd
  | t :: rest => (check t).map (·, rest)

/-- Requires a token of one kind. -/
def require (kind : TokenKind) (t : Token α) : Except (ChartError α) (Token α) :=
  if t.kind = kind then .ok t else .error (.unexpectedToken t)

/-- Requires a sort of projectile. -/
def asEventKind : Token α → Except (ChartError α) EventKind
  | .eventType kind => .ok kind
  | t => .error (.unexpectedToken t)

/-- Requires a side. -/
def asDirection : Token α → Except (ChartError α) Direction
  | .direction side => .ok side
  | t => .error (.unexpectedToken t)

/-- Requires an offset. -/
def asOffset : Token α → Except (ChartError α) Offset
  | .timeOffset offset => .ok offset
  | t => .error (.unexpectedToken t)

/-- Requires a number; a bare offset is one too. -/
def asNumber [Scalar α] : Token α → Except (ChartError α) α
  | .number value => .ok value
  | .timeOffset offset =>
      if offset.isBare then (Scalar.ofInt offset.beats).mapError .number
      else .error (.unexpectedToken (.timeOffset offset))
  | t => .error (.unexpectedToken t)

end Token

/-! ## The grammar -/

namespace Chart

variable {α : Type} [Scalar α]

/-- The tempo clause.  The tempo has to be positive, since every duration
    is divided by it; NaN is not. -/
def readTempo (tokens : List (Token α)) : Except (ChartError α) (α × List (Token α)) := do
  let (_, tokens) ← Token.accept (Token.require .tempoMarker) tokens
  let (tempo, tokens) ← Token.accept Token.asNumber tokens
  if 0.0 < tempo then return (tempo, tokens)
  else throw (.unexpectedToken (.number tempo))

/-- The offset clause. -/
def readStart (tokens : List (Token α)) : Except (ChartError α) (α × List (Token α)) := do
  let (_, tokens) ← Token.accept (Token.require .offsetMarker) tokens
  Token.accept Token.asNumber tokens

/-- The events that a token list spells, chained from a point in time. -/
def readEvents (tempo : α) : α → List (Token α) → Except (ChartError α) (List (Event α))
  | _, [] => .ok []
  | _, [t] => do
      let _ ← t.asEventKind
      throw .unexpectedEnd
  | _, [t, u] => do
      let _ ← t.asEventKind
      let _ ← u.asDirection
      throw .unexpectedEnd
  | cursor, t :: u :: v :: rest => do
      let kind ← t.asEventKind
      let side ← u.asDirection
      let offset ← v.asOffset
      let delay ← (offset.seconds tempo).mapError .number
      let event : Event α := { arrival := cursor + delay, side, kind }
      return event :: (← readEvents tempo event.arrival rest)

/-- The chart that a token list spells. -/
def ofTokens (tokens : List (Token α)) : Except (ChartError α) (Chart α) := do
  let (tempo, tokens) ← readTempo tokens
  let (start, tokens) ← readStart tokens
  let events ← readEvents tempo start tokens
  return { tempo, start, events }

/-- The chart that a text spells. -/
def ofText (source : List Char) : Except (ChartError Float) (Chart Float) := do
  ofTokens (← Token.ofText source)

end Chart

end BeatShield
