import BeatShield.Entry
import BeatShield.Input
import BeatShield.Level

/-! # Menu — choosing a level

    The menu lists the levels of the songs folder; one of them is
    selected, and a message may stand below.

      * Up and down move the selection around the list.
      * Enter and space choose the selected level; what is pressed after
        that in the same frame has no effect.
      * Without levels no key has an effect. -/

namespace BeatShield

/-- What a key does in the menu. -/
inductive MenuAction where
  | back
  | forth
  | choose
  deriving DecidableEq, Repr

/-- What a key does in the menu, if anything. -/
def Key.menuAction? : Key → Option MenuAction
  | .up | .w => some .back
  | .down | .s => some .forth
  | .enter | .space => some .choose
  | _ => none

/-- What an input does in the menu, if anything. -/
def Input.menuAction? : Input → Option MenuAction
  | .press key => key.menuAction?
  | _ => none

/-- The menu. -/
structure Menu where
  songs : Path
  levels : List Level
  selected : Int
  message : Option String
  deriving DecidableEq, Repr

/-- What the inputs of a frame lead to in the menu. -/
structure Choice where
  menu : Menu
  chosen : Except Fault (Option Level)
  notices : List Notice

namespace Menu

/-- The levels of a songs folder; a missing folder has none and is
    reported. -/
def findLevels (files : Files) (songs : Path) : Activity (List Level) := do
  match ← Journal.ofExcept ((Level.find files songs).mapError .file) with
  | some levels => return levels
  | none =>
      Activity.log (.songsMissing songs)
      return []

/-- The menu of a songs folder. -/
def ofFolder (files : Files) (songs : Path) : Activity Menu := do
  return { songs, levels := ← findLevels files songs, selected := 0, message := none }

/-- The menu with its levels looked up again.  The selection stays within
    the list. -/
def refresh (menu : Menu) (files : Files) : Activity Menu := do
  let levels ← findLevels files menu.songs
  return { menu with levels, selected := min menu.selected (max 0 ((levels.length : Int) - 1)) }

/-- The names of the levels. -/
def names (menu : Menu) : List String := menu.levels.map (·.name)

/-- The selected level.  A negative selection counts from the end. -/
def current? (menu : Menu) : Option Level :=
  let place := if menu.selected < 0 then menu.selected + menu.levels.length else menu.selected
  if place < 0 then none else menu.levels[place.toNat]?

/-- Moves the selection, around the ends of the list. -/
def move (menu : Menu) (steps : Int) : Menu :=
  { menu with selected := (menu.selected + steps) % menu.levels.length }

/-- Chooses the selected level. -/
def choose (menu : Menu) : Choice :=
  match menu.current? with
  | some level => { menu, chosen := .ok (some level), notices := [.levelSelected level.name] }
  | none => { menu, chosen := .error .selection, notices := [] }

/-- What inputs do, one after the other, in a menu with levels. -/
def act : Menu → List Input → Choice
  | menu, [] => { menu, chosen := .ok none, notices := [] }
  | menu, input :: rest =>
      match input.menuAction? with
      | some .back => act (menu.move (-1)) rest
      | some .forth => act (menu.move 1) rest
      | some .choose => menu.choose
      | none => act menu rest

/-- What the inputs of a frame lead to. -/
def handle (menu : Menu) (inputs : List Input) : Choice :=
  if menu.levels.isEmpty then { menu, chosen := .ok none, notices := [] }
  else act menu inputs

end Menu

end BeatShield
