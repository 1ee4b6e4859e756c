import BeatShield.FileTree.Basic

/-! # Level — the levels of a songs folder

    A level is a folder that holds a chart file.  The levels of a songs
    folder are its direct subfolders of that kind, in the order of their
    names by code points.  An entry whose path is too long to be looked at
    stops the search. -/

namespace BeatShield

/-- A level: its name and its folder. -/
structure Level where
  name : String
  folder : Path
  deriving DecidableEq, Repr

namespace Level

/-- The name of a level's chart file. -/
def chartFile : String := "sheet.sht"

/-- The name of a level's song. -/
def songFile : String := "song.wav"

/-- The path of a level's chart. -/
def chartPath (level : Level) : Path := level.folder.child chartFile

/-- The path of a level's song. -/
def songPath (level : Level) : Path := level.folder.child songFile

/-- The level of a name in a songs folder.  The name may itself be a
    path. -/
def named (songs : Path) (name : String) : Level :=
  { name, folder := songs.join (Path.ofString name) }

/-- Whether an entry of a songs folder is a level: a folder with a chart
    that is a file. -/
def isLevel : FileTree → Bool
  | .file _ => false
  | .folder entries =>
      match entries.lookup chartFile with
      | some (.file _) => true
      | _ => false

/-- The first path that is too long to be looked at, when an entry of a
    songs folder is examined: its own, or its chart's if it is a folder. -/
def tooLong? (level : Level) (tree : FileTree) : Option Path :=
  if ¬ Files.Fits level.folder then some level.folder
  else
    match tree with
    | .file _ => none
    | .folder _ => if Files.Fits level.chartPath then none else some level.chartPath

/-- The levels among the entries of a songs folder, one entry after the
    other. -/
def collect (songs : Path) : List (String × FileTree) → Except FileError (List Level)
  | [] => .ok []
  | (name, tree) :: rest => do
      let level : Level := { name, folder := songs.child name }
      match level.tooLong? tree with
      | some path => throw ⟨.nameTooLong, path⟩
      | none =>
          let others ← collect songs rest
          return if isLevel tree then level :: others else others

/-- The entries of a folder in the order of their names. -/
def sorted (entries : List (String × FileTree)) : List (String × FileTree) :=
  entries.mergeSort fun a b => decide (a.1 ≤ b.1)

/-- The levels of the songs folder at a path, if there is a folder. -/
def find (files : Files) (songs : Path) : Except FileError (Option (List Level)) := do
  match ← files.folder? songs with
  | none => return none
  | some entries => return some (← collect songs (sorted entries))

end Level

end BeatShield
