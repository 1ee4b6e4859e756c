import BeatShield.Decimal.Basic
import BeatShield.Number.Scalar
import BeatShield.Text.Split

/-! # Offset — durations and positions in fourths, beats and bars

    A tempo counts beats per minute.  A beat has four fourths and a bar
    has four beats.

    An offset is written `[fourths;]beats[|bars]`.  A part that is not
    written counts as zero, but the offset remembers that it was absent,
    so that writing gives back what was read.

      * `read` takes the text before the first `;`, then the text after
        the first `|` of what remains, then the rest; each part is an
        optional `+` and ASCII digits.
      * `write` is the notation without signs or leading zeros.
      * `seconds` is the duration at a tempo.

    The musical position (`Position.label`) is shown in the same notation, with
    all three parts: the fourths of the beat, the beats of the bar, and the
    bars since the start. -/

namespace BeatShield

/-! ## Tempo -/

namespace Tempo

variable {α : Type} [Scalar α]

/-- The fourths of a beat. -/
def fourthsPerBeat : Nat := 4

/-- The beats of a bar. -/
def beatsPerBar : Nat := 4

/-- The seconds that a beat lasts; no beat has a length at tempo zero. -/
def beatLength (tempo : α) : Except NumberError α := Scalar.divide 60.0 tempo

/-- The beats that pass in a second. -/
def beatRate (tempo : α) : α := tempo / 60.0

end Tempo

/-- A duration relative to the previous arrival. -/
structure Offset where
  fourths : Option Int
  beats : Int
  bars : Option Int
  deriving DecidableEq, Repr

/-- The ways in which a text is not an offset. -/
inductive OffsetError where
  /-- A part that is not an optional `+` and digits. -/
  | malformed (part : List Char)
  /-- A part with more digits than an integer may have. -/
  | tooManyDigits (count : Nat)
  deriving DecidableEq, Repr

namespace Offset

/-! ## Notation -/

/-- The digits of a part, without the plus sign it may have. -/
def unsigned : List Char → List Char
  | '+' :: rest => rest
  | part => part

/-- Reads one part: an optional `+` and one or more ASCII digits. -/
def readPart (part : List Char) : Except OffsetError Nat :=
  let digits := unsigned part
  if digits.isEmpty || !digits.all Char.isDigit then .error (.malformed part)
  else if Decimal.digitLimit < digits.length then .error (.tooManyDigits digits.length)
  else .ok (Nat.ofDigitChars 10 digits 0)

/-- Reads the part that a separator sets off, if the separator occurs. -/
def readOptional : Option (List Char) → Except OffsetError (Option Int)
  | none => .ok none
  | some part => do return some (← readPart part)

/-- The three texts that the separators cut an atom into: fourths, beats
    and bars. -/
def parts (atom : List Char) : Option (List Char) × List Char × Option (List Char) :=
  let (fourths, rest) := match Text.splitFirst ';' atom with
    | none => (none, atom)
    | some (before, after) => (some before, after)
  match Text.splitFirst '|' rest with
  | none => (fourths, rest, none)
  | some (before, after) => (fourths, before, some after)

/-- Reads an offset.  Of several malformed parts the first in the order
    fourths, bars, beats is reported. -/
def read (atom : List Char) : Except OffsetError Offset := do
  let (fourthsPart, beatsPart, barsPart) := parts atom
  let fourths ← readOptional fourthsPart
  let bars ← readOptional barsPart
  let beats ← readPart beatsPart
  return { fourths, beats, bars }

/-- Writes an offset. -/
def write (o : Offset) : List Char :=
  let front := match o.fourths with
    | none => []
    | some fourths => Decimal.integer fourths ++ [';']
  let back := match o.bars with
    | none => []
    | some bars => '|' :: Decimal.integer bars
  front ++ Decimal.integer o.beats ++ back

/-- The notation of an offset. -/
def text (o : Offset) : String := String.ofList o.write

/-- Whether an offset has beats alone, so that it looks like an integer. -/
def isBare (o : Offset) : Bool := o.fourths.isNone && o.bars.isNone

/-! ## Length -/

/-- The fourths that an offset has in all. -/
def totalFourths (o : Offset) : Int :=
  o.fourths.getD 0 + 4 * o.beats + 16 * o.bars.getD 0

/-- The length of an offset in seconds at a tempo. -/
def seconds {α : Type} [Scalar α] (o : Offset) (tempo : α) : Except NumberError α := do
  let beat ← Tempo.beatLength tempo
  let fourths ← Scalar.ofInt (o.fourths.getD 0)
  let beats ← Scalar.ofInt o.beats
  let bars ← Scalar.ofInt (o.bars.getD 0)
  return fourths * beat / 4.0 + beats * beat + bars * beat * 4.0

end Offset

/-! ## Where the music stands -/

namespace Position

variable {α : Type} [Scalar α]

/-- The offset with all three parts that has so many fourths in all. -/
def ofFourths (total : Nat) : Offset :=
  { fourths := some (total % Tempo.fourthsPerBeat : Nat)
    beats := (total / Tempo.fourthsPerBeat % Tempo.beatsPerBar : Nat)
    bars := some (total / (Tempo.fourthsPerBeat * Tempo.beatsPerBar) : Nat) }

/-- The position after so many seconds of music.  Fourths are counted once
    they are complete, and before the start none are. -/
def reached (elapsed tempo : α) : Except NumberError Offset := do
  let fourths ← Scalar.truncate (elapsed * Tempo.beatRate tempo * 4.0)
  return ofFourths fourths.toNat

/-- The position as it is shown. -/
def label (elapsed tempo : α) : Except NumberError String :=
  (reached elapsed tempo).map Offset.text

end Position

end BeatShield
