import BeatShield.Options.Usage
import BeatShield.Text.DecimalDigit
import BeatShield.Text.Quoted
import BeatShield.Text.Split

/-! # Options — the arguments of the program

    Arguments are read in two passes.

      * Each argument is first sorted by its form: a flag, perhaps with a
        value attached; something that looks like a flag but is none; or
        plain text.  Long flags may be shortened as long as only one fits.
        After a lone double dash everything is plain text.
      * Then the flags take effect from left to right.  A flag with a
        value takes it from its own argument or from the plain text after
        it, but an attached double dash only empties the option.  What no
        flag takes is refused at the end. -/

namespace BeatShield

/-- What an option is set to.  A lone double dash attached to a flag
    (`--level=--`) takes the value away and puts nothing in its place. -/
inductive Setting (α : Type) where
  /-- Nothing so far. -/
  | unset
  /-- Nothing any more. -/
  | emptied
  /-- A value. -/
  | given (value : α)
  deriving DecidableEq, Repr

/-- What the program is asked to do. -/
structure Options where
  songs : Setting String := .given "songs"
  level : Setting String := .unset
  fps : Setting Int := .given 60
  logFile : Setting String := .given "shield_game.log"
  verbose : Bool := false
  deriving DecidableEq, Repr

/-- The reasons for which the program ends before it starts. -/
inductive Exit where
  /-- Help was asked for. -/
  | help
  /-- The arguments cannot be used. -/
  | misuse (message : String)
  deriving DecidableEq, Repr

namespace Exit

/-- The exit code. -/
def code : Exit → Nat
  | .help => 0
  | .misuse _ => 2

/-- What is written to the standard output. -/
def output : Exit → String
  | .help => Usage.help
  | .misuse _ => ""

/-- What is written to the standard error. -/
def errorOutput : Exit → String
  | .help => ""
  | .misuse message => Usage.error message

end Exit

/-- The flags. -/
inductive Flag where
  | help
  | songs
  | level
  | fps
  | logFile
  | verbose
  deriving DecidableEq, Repr

namespace Flag

/-- The spellings of the flags. -/
def spellings : List (String × Flag) := [
  ("-h", .help), ("--help", .help), ("--songs-dir", .songs), ("--level", .level),
  ("--fps", .fps), ("--log-file", .logFile), ("--verbose", .verbose)]

/-- The flag of a full spelling. -/
def ofSpelling? (s : String) : Option Flag := spellings.lookup s

/-- The name of a flag in messages: all its spellings. -/
def name (flag : Flag) : String :=
  "/".intercalate ((spellings.filter (·.2 == flag)).map (·.1))

/-- Whether a flag takes a value. -/
def takesValue : Flag → Bool
  | .help | .verbose => false
  | _ => true

/-- The exit for a flag that is used wrongly. -/
def misuse (flag : Flag) (message : String) : Exit :=
  .misuse ("argument " ++ flag.name ++ ": " ++ message)

end Flag

/-! ## The form of an argument -/

/-- What is attached to a flag in its own argument. -/
inductive Attached where
  | nothing
  /-- A text after an equals sign. -/
  | value (text : List Char)
  /-- Letters after a short flag, which are short flags too. -/
  | tail (text : List Char)
  deriving DecidableEq, Repr

/-- What an equals sign attaches to a flag of a spelling.  After a short
    flag the sign makes no difference, unless nothing follows it. -/
def Attached.ofValue (spelling text : List Char) : Attached :=
  if spelling.length = 2 ∧ text ≠ [] then .tail text else .value text

/-- The form of an argument. -/
inductive Form where
  | plain
  /-- A lone double dash. -/
  | separator
  | unknown
  | flag (which : Flag) (attached : Attached)
  deriving DecidableEq, Repr

namespace Form

/-- Whether a text looks like a negative number: a minus sign and digits
    of any script, with a point among or before them perhaps.  A line feed
    may follow. -/
def looksNegative (cs : List Char) : Bool :=
  match cs with
  | '-' :: rest =>
      let body := if rest.getLast? = some '\n' then rest.dropLast else rest
      let whole := body.takeWhile Text.isDecimalDigit
      match body.dropWhile Text.isDecimalDigit with
      | [] => !whole.isEmpty
      | '.' :: fraction => !fraction.isEmpty && fraction.all Text.isDecimalDigit
      | _ => false
  | _ => false

/-- The flags that a long spelling may be short for. -/
def completions (start : List Char) : List (String × Flag) :=
  Flag.spellings.filter fun (spelling, _) => start.isPrefixOf spelling.toList

/-- The form of a text that starts with a dash and is neither a flag nor a
    flag with a value: a shortened long flag, a short flag with a tail, a
    negative number, a text with spaces, or nothing known. -/
def ofDashed (cs : List Char) : Except Exit Form :=
  let other : Form :=
    if looksNegative cs || cs.contains ' ' then .plain else .unknown
  match cs with
  | '-' :: '-' :: _ =>
      let (start, attached) := match Text.splitFirst '=' cs with
        | none => (cs, Attached.nothing)
        | some (before, after) => (before, .value after)
      match completions start with
      | [] => .ok other
      | [(_, found)] => .ok (.flag found attached)
      | several =>
          .error (.misuse ("ambiguous option: " ++ String.ofList cs ++ " could match "
            ++ ", ".intercalate (several.map (·.1))))
  | '-' :: 'h' :: tail => .ok (.flag .help (.tail tail))
  | _ => .ok other

/-- The form of an argument. -/
def ofArgument (argument : String) : Except Exit Form :=
  let cs := argument.toList
  if cs.head? != some '-' then .ok .plain
  else
    match Flag.ofSpelling? argument with
    | some found => .ok (.flag found .nothing)
    | none =>
        if cs.length = 1 then .ok .plain
        else
          match Text.splitFirst '=' cs with
          | none => ofDashed cs
          | some (before, after) =>
              match Flag.ofSpelling? (String.ofList before) with
              | some found => .ok (.flag found (.ofValue before after))
              | none => ofDashed cs

/-- The forms of all arguments. -/
def ofArguments : List String → Except Exit (List (String × Form))
  | [] => .ok []
  | argument :: rest =>
      if argument = "--" then
        .ok ((argument, .separator) :: rest.map (·, .plain))
      else do
        let form ← ofArgument argument
        return (argument, form) :: (← ofArguments rest)

end Form

/-! ## The effect of the flags -/

namespace Options

/-- The effect of a flag with its value. -/
def set (options : Options) (flag : Flag) (value : String) : Except Exit Options :=
  match flag with
  | .songs => .ok { options with songs := .given value }
  | .level => .ok { options with level := .given value }
  | .logFile => .ok { options with logFile := .given value }
  | .fps =>
      match Text.integer? value.toList with
      | some fps => .ok { options with fps := .given fps }
      | none => .error (flag.misuse ("invalid int value: " ++ Text.quoted value))
  | _ => .ok options

/-- The effect of a flag whose value is taken away. -/
def clear (options : Options) : Flag → Options
  | .songs => { options with songs := .emptied }
  | .level => { options with level := .emptied }
  | .fps => { options with fps := .emptied }
  | .logFile => { options with logFile := .emptied }
  | .help | .verbose => options

/-- The effect of a flag without a value. -/
def enable (options : Options) : Flag → Except Exit Options
  | .help => .error .help
  | .verbose => .ok { options with verbose := true }
  | _ => .ok options

/-- The refusal of a value for a flag that takes none. -/
def refuse (flag : Flag) (text : List Char) : Exit :=
  flag.misuse ("ignored explicit argument " ++ String.ofList (Text.quote text))

/-- The effect of the help flag with letters after it.  Help flags may
    follow; from the first letter that is none on, the text is refused. -/
def helpTail : List Char → Exit
  | [] => .help
  | 'h' :: rest => helpTail rest
  | rest => refuse .help rest

/-- The effect of a flag that has a text in its own argument. -/
def applyAttached (options : Options) (flag : Flag) (attached : Attached) :
    Except Exit Options :=
  match attached with
  | .nothing => options.enable flag
  | .value text =>
      if !flag.takesValue then .error (refuse flag text)
      else if text = ['-', '-'] then .ok (options.clear flag)
      else options.set flag (String.ofList text)
  | .tail text => .error (helpTail text)

/-- Lets the flags take effect.  The second result lists what no flag
    takes. -/
def applyAll : Options → List (String × Form) → Except Exit (Options × List String)
  | options, [] => .ok (options, [])
  | options, (_, .flag flag .nothing) :: rest =>
      if flag.takesValue then
        match rest with
        | (value, .plain) :: rest => do
            let options ← options.set flag value
            applyAll options rest
        | _ => .error (flag.misuse "expected one argument")
      else do
        let options ← options.enable flag
        applyAll options rest
  | options, (_, .flag flag attached) :: rest => do
      let options ← options.applyAttached flag attached
      applyAll options rest
  | options, (argument, _) :: rest => do
      let (options, left) ← applyAll options rest
      return (options, argument :: left)

/-- Reads the arguments of the program. -/
def read (arguments : List String) : Except Exit Options := do
  let (options, left) ← applyAll {} (← Form.ofArguments arguments)
  match left with
  | [] => return options
  | _ => throw (.misuse ("unrecognized arguments: " ++ " ".intercalate left))

end Options

end BeatShield
