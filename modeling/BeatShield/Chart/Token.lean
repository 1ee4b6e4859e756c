import BeatShield.Decimal.Numeral
import BeatShield.Decimal.Text
import BeatShield.Direction
import BeatShield.Text.Split
import BeatShield.Text.Quoted
import BeatShield.Timing.Offset

/-! # Token — the atoms of a chart

    A chart is a sequence of atoms parted by blanks.  Each atom is one of
    six kinds of token.

      * `Token.ofAtom` tries the notation of offsets first, then decimal
        numerals, then the keywords; the first that fits decides.
      * `Token.ofText` does this for all atoms of a text, up to the first
        that fits nothing.
      * `ChartError` lists what can be wrong with a chart. -/

namespace BeatShield

/-- The sorts of projectile. -/
inductive EventKind where
  | normal
  deriving DecidableEq, Repr

/-- The sorts of token. -/
inductive TokenKind where
  | tempoMarker
  | offsetMarker
  | timeOffset
  | direction
  | number
  | eventType
  deriving DecidableEq, Repr

/-- The name of a sort of token. -/
def TokenKind.name : TokenKind → String
  | .tempoMarker => "TEMPO_MARKER"
  | .offsetMarker => "OFFSET_MARKER"
  | .timeOffset => "TIME_OFFSET"
  | .direction => "DIRECTION"
  | .number => "NUMBER"
  | .eventType => "EVENT_TYPE"

/-- One atom of a chart and what it means. -/
inductive Token (α : Type) where
  | tempoMarker
  | offsetMarker
  | timeOffset (offset : Offset)
  | direction (side : Direction)
  | number (value : α)
  | eventType (kind : EventKind)
  deriving DecidableEq, Repr

/-- The ways in which a chart fails to compile. -/
inductive ChartError (α : Type) where
  /-- An atom that is no token. -/
  | unrecognizedAtom (text : List Char)
  /-- A token that the grammar does not allow where it stands. -/
  | unexpectedToken (token : Token α)
  /-- The tokens end in the middle of a rule. -/
  | unexpectedEnd
  /-- A number beyond what can be computed with.  This is not a fault of
      the chart's grammar. -/
  | number (cause : NumberError)
  deriving DecidableEq, Repr

namespace Token

variable {α : Type}

/-- The sort of a token. -/
def kind : Token α → TokenKind
  | .tempoMarker => .tempoMarker
  | .offsetMarker => .offsetMarker
  | .timeOffset _ => .timeOffset
  | .direction _ => .direction
  | .number _ => .number
  | .eventType _ => .eventType

/-! ## Reading atoms -/

/-- The keywords and their tokens.  The sides are written by their
    letters. -/
def keywords : List (List Char × Token α) :=
  [(['#', 'b', 'p', 'm'], .tempoMarker), (['#', 'o', 'f', 'f', 's', 'e', 't'], .offsetMarker)]
    ++ Direction.all.map (fun side => ([side.letter], .direction side))
    ++ [(['n', 'o', 'r', 'm'], .eventType .normal)]

/-- The token of a keyword. -/
def ofKeyword? (atom : List Char) : Option (Token α) := keywords.lookup atom

/-- The token of an atom.  An atom with a part of too many digits is not
    tried any further. -/
def ofAtom (atom : List Char) : Except (ChartError Float) (Token Float) :=
  match Offset.read atom with
  | .ok offset => .ok (.timeOffset offset)
  | .error (.tooManyDigits count) => .error (.number (.tooManyDigits count))
  | .error (.malformed _) =>
      match Numeral.read atom with
      | some numeral => .ok (.number numeral.toFloat)
      | none =>
          match ofKeyword? atom with
          | some token => .ok token
          | none => .error (.unrecognizedAtom atom)

/-- The tokens of a text, up to the first atom that is none. -/
def ofText (source : List Char) : Except (ChartError Float) (List (Token Float)) :=
  (Text.words source).mapM ofAtom

/-! ## Messages -/

/-- A token in a message: its kind, and its value if it has one. -/
def text : Token Float → String
  | .tempoMarker => TokenKind.tempoMarker.name
  | .offsetMarker => TokenKind.offsetMarker.name
  | .timeOffset offset => TokenKind.timeOffset.name ++ "(" ++ offset.text ++ ")"
  | .direction side => TokenKind.direction.name ++ "(Direction." ++ side.name ++ ")"
  | .number value => TokenKind.number.name ++ "(" ++ Decimal.text value ++ ")"
  | .eventType .normal => TokenKind.eventType.name ++ "(EventKind.NORMAL)"

end Token

/-- The wording of a chart error. -/
def ChartError.message : ChartError Float → String
  | .unrecognizedAtom text => "Unrecognized atom: " ++ String.ofList (Text.quote text)
  | .unexpectedToken token => "Unexpected token: " ++ token.text
  | .unexpectedEnd => "Unexpected end of chart"
  | .number cause => cause.message

end BeatShield
