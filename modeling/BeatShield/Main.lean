import BeatShield.Game

/-! # Main — the program

    The program plays a script from the standard input: one turn a line,
    each with the milliseconds until the next turn and the keys pressed
    (`16 up enter`, `500`, `16 close`).  The pictures shown are written to
    the standard output in words, and the log goes to its file.  The
    levels are read from the songs folder on disk. -/

namespace BeatShield.Main

/-- The input that a word of the script stands for. -/
def inputOfWord : String → Input
  | "w" => .press .w
  | "a" => .press .a
  | "s" => .press .s
  | "d" => .press .d
  | "r" => .press .r
  | "up" => .press .up
  | "down" => .press .down
  | "left" => .press .left
  | "right" => .press .right
  | "escape" => .press .escape
  | "enter" => .press .enter
  | "space" => .press .space
  | "close" => .close
  | _ => .other

/-- The turn that a line of the script stands for, if it starts with a
    number. -/
def turnOfLine? (line : String) : Option Turn :=
  match Text.words line.toList with
  | [] => none
  | first :: rest =>
      (Numeral.read first).map fun milliseconds =>
        { inputs := rest.map fun word => inputOfWord (String.ofList word)
          milliseconds := milliseconds.toFloat }

/-- A picture in words. -/
def describe? : Entry → Option String
  | .showedRun run particles label =>
      some ("Score: " ++ Decimal.integerText run.score ++ "  " ++ label
        ++ "  particles: " ++ particles.repr)
  | .showedMenu names selected message =>
      some ("Levels: " ++ ", ".intercalate names ++ "  selected: "
        ++ Decimal.integerText selected ++ "  " ++ message.getD "")
  | _ => none

/-- An entry of a folder on disk, with all that is below it. -/
partial def readEntry (entry : IO.FS.DirEntry) : IO (String × FileTree) := do
  if ← entry.path.isDir then
    let inner ← (← entry.path.readDir).toList.mapM readEntry
    return (entry.fileName, .folder inner)
  else
    return (entry.fileName, .file (← IO.FS.readBinFile entry.path))

/-- The files of a songs folder on disk, seen from the current folder. -/
def readSongs (songs : String) : IO Files := do
  let here ← IO.currentDir
  let files : Files := { root := .empty, current := (Path.ofString here.toString).parts }
  let folder := here / songs
  if ← folder.isDir then
    let inner ← (← folder.readDir).toList.mapM readEntry
    let place := FileTree.plainParts { parts := files.names (Path.ofString songs) }
    return { files with root := FileTree.update (fun _ => .folder inner) place files.root }
  else
    return files

/-- The lines of the standard input. -/
partial def readLines (input : IO.FS.Stream) : IO (List String) := do
  let line ← input.getLine
  if line.isEmpty then return []
  else return line :: (← readLines input)

/-- Writes the log to its file, or to the standard error if it has none. -/
def writeLog (file : Setting String) (log : String) : IO Unit :=
  match file with
  | .given name => IO.FS.writeFile name log
  | _ => IO.eprint log

/-- Plays the script with given options. -/
def play (options : Options) : IO UInt32 := do
  let files ← match options.songs with
    | .given songs => readSongs songs
    | _ => pure { root := .empty, current := [] }
  let script := (← readLines (← IO.getStdin)).filterMap turnOfLine?
  let x := Game.runWith { files, speakers := fun _ => none } options (Draws.cycle #[]) script
  writeLog options.logFile
    (String.join ((Entry.notices x.entries).map fun notice => notice.line ++ "\n"))
  for line in x.entries.filterMap describe? do
    IO.println line
  match x.result with
  | .ok _ => return 0
  | .error fault =>
      IO.eprintln fault.message
      return 1

end BeatShield.Main

/-- The program: reads its arguments and plays. -/
def main (arguments : List String) : IO UInt32 := do
  match BeatShield.Options.read arguments with
  | .ok options => BeatShield.Main.play options
  | .error exit =>
      IO.print exit.output
      IO.eprint exit.errorOutput
      return exit.code.toUInt32
