/-! # Usage — the texts of the command line -/

namespace BeatShield.Usage

/-- The name of the program. -/
def program : String := "shield_game.py"

/-- How the program is called. -/
def usage : String :=
  "usage: " ++ program ++ " [-h] [--songs-dir SONGS_DIR] [--level LEVEL] [--fps FPS]\n" ++
  "                      [--log-file LOG_FILE] [--verbose]\n"

/-- The help text. -/
def help : String :=
  usage ++
  "\n" ++
  "Shield rhythm game\n" ++
  "\n" ++
  "options:\n" ++
  "  -h, --help            show this help message and exit\n" ++
  "  --songs-dir SONGS_DIR\n" ++
  "                        Directory holding one folder per level (default:\n" ++
  "                        songs)\n" ++
  "  --level LEVEL         Start this level directly instead of showing the menu\n" ++
  "  --fps FPS             Frame rate cap (default: 60)\n" ++
  "\n" ++
  "Debug options:\n" ++
  "  --log-file LOG_FILE   Log file path (default: shield_game.log)\n" ++
  "  --verbose             Log at DEBUG level\n"

/-- The text for arguments that cannot be used. -/
def error (message : String) : String :=
  usage ++ program ++ ": error: " ++ message ++ "\n"

end BeatShield.Usage
