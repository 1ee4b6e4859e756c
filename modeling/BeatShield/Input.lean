import BeatShield.Run.Frame

/-! # Input — keys and what they mean during a run

    Only fresh presses count: holding or releasing a key means nothing.
    Within a frame neither the order nor the number of presses matters. -/

namespace BeatShield

/-- The keys that have a meaning, and all others. -/
inductive Key where
  | w | a | s | d | r
  | up | down | left | right
  | escape | enter | space
  | other
  deriving DecidableEq, Repr

/-- What happens to the window: a key goes down, the window is closed, or
    something without meaning. -/
inductive Input where
  | press (key : Key)
  | close
  | other
  deriving DecidableEq, Repr

/-- The side that a key turns the shield to. -/
def Key.side? : Key → Option Direction
  | .w | .up => some .up
  | .s | .down => some .down
  | .a | .left => some .left
  | .d | .right => some .right
  | _ => none

/-- Everything asked for during one frame of a run. -/
structure Controls where
  presses : Presses
  /-- Leave the level. -/
  back : Bool
  /-- Close the window. -/
  quit : Bool
  deriving DecidableEq, Repr

/-- What the inputs of a frame ask for. -/
def Controls.collect (inputs : List Input) : Controls :=
  let pressed (wanted : Key → Bool) : Bool := inputs.any fun
    | .press key => wanted key
    | _ => false
  { presses :=
      { sides := Direction.all.filter fun side => pressed (·.side? == some side)
        restart := pressed (· == .r) }
    back := pressed (· == .escape)
    quit := inputs.contains .close }

end BeatShield
