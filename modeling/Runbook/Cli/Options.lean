/-
  The arguments of the command line.

  They name a subcommand and its options.  An option takes its value from the
  next argument, after an equals sign or, if it is short, right after its letter;
  a long option may be cut short as long as it stays the only one; short options
  may stand together after one dash; the last value of an option counts.
-/
import Runbook.Text.Basic

namespace Runbook.Cli

/-- What the command line can be asked for. -/
inductive Subcommand where
  | parse
  | check
  | run
  | commands
  deriving DecidableEq, Repr

/-- The subcommand of a name. -/
def Subcommand.ofName? : String → Option Subcommand
  | "parse" => some parse
  | "check" => some check
  | "run" => some run
  | "commands" => some commands
  | _ => none

/-- The options that there are. -/
inductive Switch where
  | help
  | file
  | command
  | app
  deriving DecidableEq, Repr

/-- The spellings of the call for help. -/
def helpSpellings : List (String × Switch) := [("-h", .help), ("--help", .help)]

/-- The spellings of the options of a subcommand. -/
def Subcommand.spellings (s : Subcommand) : List (String × Switch) :=
  let help := helpSpellings
  let source := [("-f", Switch.file), ("--file", .file), ("-c", .command), ("--command", .command)]
  let app := [("--app", Switch.app)]
  match s with
  | parse => help ++ source
  | check | run => help ++ source ++ app
  | commands => help ++ app

/-- A request: a subcommand with the values of its options. -/
structure Request where
  subcommand : Subcommand
  file : Option String
  command : Option String
  app : Option String
  deriving DecidableEq

/-- Whether a request reads its source from the standard input.  An empty option counts as none. -/
def Request.readsInput (r : Request) : Bool :=
  r.subcommand ≠ .commands && (r.file.getD "").isEmpty && (r.command.getD "").isEmpty

/-- Why there is no request: help was asked for, or the arguments are wrong. -/
inductive Refusal where
  | help
  | usage
  deriving DecidableEq, Repr

/-! ## Recognising options -/

/-- What an argument is: a value, an option with the value that is part of it, if any, an option that
there is not, or one that could be several.  The end of the options, after which only values stand,
is as bad as the last of these, since no value can stand alone. -/
inductive Shape where
  | value
  | option (o : Switch) (attached : Option String)
  | unknown
  | ambiguous
  deriving DecidableEq

/-- Whether an argument is a negative number, which is a value: digits after a minus sign, with at
most one point before the last of them.  A line end may follow. -/
def isNegativeNumber (s : String) : Bool :=
  match s.toList with
  | '-' :: cs =>
    let cs := if cs.getLast? = some '\n' then cs.dropLast else cs
    let whole := cs.takeWhile Text.isDecimalDigit
    match cs.dropWhile Text.isDecimalDigit with
    | [] => !whole.isEmpty
    | '.' :: fraction => !fraction.isEmpty && fraction.all Text.isDecimalDigit
    | _ => false
  | _ => false

/-- The options that an argument can be the beginning of, or a short option together with its
value. -/
def candidates (spellings : List (String × Switch)) (s : String) :
    List (Switch × Option String) :=
  match s.toList with
  | '-' :: '-' :: _ =>
    let name := (s.splitOn "=").headD ""
    let attached := match s.splitOn "=" with
      | _ :: v :: vs => some ("=".intercalate (v :: vs))
      | _ => none
    spellings.filterMap fun (spelling, o) =>
      if spelling.startsWith name then some (o, attached) else none
  | '-' :: letter :: rest =>
    spellings.filterMap fun (spelling, o) =>
      if spelling = String.ofList ['-', letter] then some (o, some (String.ofList rest))
      else if spelling.startsWith s then some (o, none)
      else none
  | _ => []

/-- The option that an argument with an equals sign spells in full, and its value. -/
def spelledWithValue? (spellings : List (String × Switch)) (s : String) :
    Option (Switch × String) :=
  match s.splitOn "=" with
  | name :: v :: vs => (spellings.lookup name).map (·, "=".intercalate (v :: vs))
  | _ => none

/-- What an argument is among the options of a subcommand. -/
def shapeOf (spellings : List (String × Switch)) (s : String) : Shape :=
  if s.length ≤ 1 || !s.startsWith "-" then .value
  else if s = "--" then .ambiguous
  else
    match spellings.lookup s, spelledWithValue? spellings s with
    | some o, _ => .option o none
    | none, some (o, v) => .option o (some v)
    | none, none =>
      match candidates spellings s with
      | [(o, attached)] => .option o attached
      | [] => if isNegativeNumber s || s.contains ' ' then .value else .unknown
      | _ => .ambiguous

/-! ## Reading requests -/

/-- A request with the value of an option. -/
def Request.set (r : Request) (o : Switch) (v : String) : Request :=
  match o with
  | .help => r
  | .file => { r with file := some v }
  | .command => { r with command := some v }
  | .app => { r with app := some v }

/-- What becomes of a call for help, given as a short option, that is followed by other short options
in the same argument.  It is heard if they can all be read; the last one may take what is left of the
argument as its value, or the next argument. -/
def refusalOfGroup (spellings : List (String × Switch)) (next : Option String) :
    List Char → Refusal
  | [] => .usage
  | letter :: cs =>
    match spellings.lookup (String.ofList ['-', letter]) with
    | none => .usage
    | some .help => if cs.isEmpty then .help else refusalOfGroup spellings next cs
    | some _ =>
      if !cs.isEmpty || next.any (shapeOf spellings · = .value) then .help else .usage

/-- What becomes of a call for help with something attached.  A long option refuses it. -/
def refusalOfHelp (spellings : List (String × Switch)) (s attached : String)
    (next : Option String) : Refusal :=
  if s.startsWith "--" then .usage else refusalOfGroup spellings next attached.toList

/-- Reads the options of a subcommand.  What is no option and no option's value is refused in the end,
so that a later call for help still counts; the flag says that there was such an argument. -/
def readOptions (spellings : List (String × Switch)) (refused : Bool) (r : Request) :
    List String → Except Refusal Request
  | [] => if refused then .error .usage else .ok r
  | s :: rest =>
    match shapeOf spellings s with
    | .option .help none => .error .help
    | .option .help (some v) => .error (refusalOfHelp spellings s v rest.head?)
    | .ambiguous => .error .usage
    | .option o (some v) => readOptions spellings refused (r.set o v) rest
    | .option o none =>
      match rest with
      | [] => .error .usage
      | v :: rest =>
        if shapeOf spellings v = .value then readOptions spellings refused (r.set o v) rest
        else .error .usage
    | .value | .unknown => readOptions spellings true r rest

/-- Reads the arguments of a subcommand.  Options that could be several are refused before anything is
read. -/
def readSubcommand (refused : Bool) (s : Subcommand) (arguments : List String) :
    Except Refusal Request :=
  if (arguments.takeWhile (· ≠ "--")).any (shapeOf s.spellings · = .ambiguous) then .error .usage
  else readOptions s.spellings refused ⟨s, none, none, none⟩ arguments

/-- Reads the arguments of the command line: those before the subcommand can only ask for help. -/
def readArguments (refused : Bool) : List String → Except Refusal Request
  | [] => .error .usage
  | s :: rest =>
    match shapeOf helpSpellings s with
    | .option _ none => .error .help
    | .option _ (some v) => .error (refusalOfHelp helpSpellings s v rest.head?)
    | .ambiguous => .error .usage
    | .unknown => readArguments true rest
    | .value =>
      match Subcommand.ofName? s with
      | none => .error .usage
      | some sub => readSubcommand refused sub rest

/-- Reads the arguments of the command line. -/
def readRequest (arguments : List String) : Except Refusal Request := readArguments false arguments

end Runbook.Cli
