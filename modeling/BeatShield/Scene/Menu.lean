import BeatShield.Scene.Basic

/-! # The scene of the menu

    A heading, the names of the levels one below the other with the
    selected one highlighted, and at the bottom a message if there is
    one. -/

namespace BeatShield.Scene

/-- The height of a line of the menu. -/
def menuLine : Nat := menuText + 4

/-- The names of the levels, from a line on. -/
def menuNames (selected : Int) : Nat → List String → List Call
  | _, [] => []
  | line, name :: rest =>
      let colour := if (line : Int) = selected then Colour.highlight else Colour.text
      .text menuText name colour 30 (70 + line * menuLine : Nat)
        :: menuNames selected (line + 1) rest

/-- The message at the bottom; an empty one is not shown. -/
def menuMessage (screen : Screen) : Option String → List Call
  | none => []
  | some message =>
      if message.isEmpty then []
      else [.text menuText message .projectile 15 ((screen.height : Int) - menuText - 10)]

/-- The picture of the menu. -/
def ofMenu (screen : Screen) (names : List String) (selected : Int)
    (message : Option String) : List Call :=
  .fill .screen .background :: caption "Levels" 15 15 :: menuNames selected 0 names
    ++ (if names.isEmpty then [.text menuText "No levels found" .text 30 70] else [])
    ++ menuMessage screen message ++ [.flip]

end BeatShield.Scene
