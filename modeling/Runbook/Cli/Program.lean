/-
  The program behind the command line.

  `parse` prints statements as JSON, `check` tells what keeps them from running,
  `run` runs them and prints the values of their variables, and `commands` prints
  the help text of a host.  Every outcome that a user can do something about has
  an exit code: 0 for success, 1 for a source that fails and 2 for a host that
  does not load.
-/
import Runbook.Cli.Options
import Runbook.Cli.Target
import Runbook.Log.Handler
import Runbook.Settings.Sources

namespace Runbook.Cli

/-- What the program finds when it starts: the store of its settings, its standard input, the modules
that targets can name, and the time that log lines show. -/
structure Surroundings where
  store : Settings.Store
  input : List UInt8
  modules : List Module
  timestamp : String

/-- What ends the program without an exit code. -/
inductive Failure where
  | settings (e : Settings.LoadError)
  | host (c : Crash)
  | source (fault : PathFault)
  | undecodable (e : Text.Utf8.DecodeError)
  | run (e : Run.RunError)
  | duration (f : Run.DurationFault)

/-- The wording of settings that cannot be read. -/
def settingsMessage : Settings.LoadError → String
  | .undecodable e => e.message
  | .unreachable fault => fault.message
  | .unassignable fault => fault.message
  | .invalid fields =>
    "invalid settings: " ++ ", ".intercalate (fields.map fun (f, m) => f.key ++ " (" ++ m.name ++ ")")

/-- The wording of a failure. -/
def Failure.message : Failure → String
  | settings e => settingsMessage e
  | host c => c.message
  | source fault => fault.message
  | undecodable e => e.message
  | run e => e.message
  | duration f => f.message

/-- What the program has written so far, and its world. -/
structure Output where
  errors : String
  world : World

/-- How the program ends. -/
structure Result where
  output : Output
  exit : Except Failure Nat

/-- Adds a line to the error stream. -/
def Output.complain (o : Output) (line : String) : Output :=
  { o with errors := o.errors ++ line ++ "\n" }

/-- Prints a line. -/
def Output.print (o : Output) (line : String) : Output :=
  { o with world := { o.world with host := o.world.host.printLine line } }

/-- Adds log lines to the error stream. -/
def Output.log (o : Output) (log : Log.State) (timestamp : String) (records : List Log.Record) :
    Output :=
  { o with errors := o.errors ++ log.lines timestamp records }

/-! ## The source text -/

/-- The source text: that of the file if one is named, else the text of the command option, else the
standard input.  An empty option counts as none. -/
def readSource (s : Surroundings) (r : Request) : Except Failure String :=
  let text (bytes : List UInt8) : Except Failure String :=
    ((Settings.decodeText bytes).map String.ofList).mapError .undecodable
  match r.file.filter (· ≠ ""), r.command.filter (· ≠ "") with
  | some path, _ =>
    match s.store.disk.read path with
    | .error fault => .error (.source fault)
    | .ok bytes => text bytes
  | none, some source => .ok source
  | none, none => text s.input

/-! ## Statements as JSON -/

/-- An argument as JSON: a literal is a string, a reference an object. -/
def argumentJson : Script.Argument → Json
  | .literal value => .str value
  | .reference name => .obj [("type", .str "variable-ref"), ("name", .str name)]

/-- A command as JSON. -/
def commandJson (c : Script.Command) : Json :=
  .obj [("name", .str c.name), ("positional_args", .arr (c.positional.map argumentJson)),
    ("named_args", .obj (c.named.entries.map fun (k, a) => (k, argumentJson a)))]

/-- A statement as JSON. -/
def statementJson (s : Script.Statement) : Json :=
  match s.target with
  | none => .obj [("type", .str "command"), ("command", commandJson s.command)]
  | some name =>
    .obj [("type", .str "assignment"), ("variable_name", .str name),
      ("command", commandJson s.command)]

/-- The document that `parse` prints. -/
def programJson (statements : List Script.Statement) : Json := .arr (statements.map statementJson)

/-- The document that `run` prints of variables, or a refusal; an opaque leaf in it is its text as an
argument, which nothing refuses. -/
def bindingsJson? {φ : Type} (l : Value.Library String φ) (bindings : Table String (Value String φ)) :
    Except φ Json := do
  let data ← (Value.object bindings.entries).plain? l
  let leaf v := (v.stringify? l).toOption.getD v.display
  .ok (data.jsonWith leaf)

/-- The document that `run` prints. -/
def bindingsJson (bindings : Bindings) : Json := Value.unrefused (bindingsJson? .stock bindings)

/-! ## Subcommands -/

/-- What a subcommand works with: the surroundings, the settings, the state of logging and the
request. -/
structure Context where
  surroundings : Surroundings
  settings : Settings
  log : Log.State
  request : Request

/-- Ends with an exit code. -/
def Output.exit (o : Output) (code : Nat) : Result := ⟨o, .ok code⟩

/-- Ends with a failure. -/
def Output.fail (o : Output) (f : Failure) : Result := ⟨o, .error f⟩

/-- Adds the log lines of records. -/
def Context.logged (c : Context) (o : Output) (records : List Log.Record) : Output :=
  o.log c.log c.surroundings.timestamp records

/-- Reads and parses the source, and goes on with the statements. -/
def Context.parsing (c : Context) (o : Output) (next : Output → List Script.Statement → Result) :
    Result :=
  match readSource c.surroundings c.request with
  | .error f => o.fail f
  | .ok source =>
    match Script.parse source with
    | .error e => (o.complain ("Syntax error: " ++ e.message)).exit 1
    | .ok statements => next (c.logged o (Script.notices source)) statements

/-- Why a subcommand has no host: no target is named, or the one that is does not load. -/
inductive HostFault where
  | unnamed
  | unloadable (target : String) (fault : TargetFault)

/-- The wording of a fault. -/
def HostFault.message : HostFault → String
  | unnamed => "no host given; use --app MODULE:ATTR or set YESOD_APP"
  | unloadable target fault => s!"cannot load {target}: {fault.message}"

/-- The crash of a host that a load is not prepared for. -/
def HostFault.unexpected? : HostFault → Option Crash
  | unnamed => none
  | unloadable _ fault => fault.unexpected?

/-- The host that the request or the settings name: what is logged while it loads, and the
application. -/
def Context.host (c : Context) : List Log.Record × Except HostFault App :=
  match (c.request.app.filter (· ≠ "") <|> c.settings.app).filter (· ≠ "") with
  | none => ([], .error .unnamed)
  | some target =>
    let (records, found) :=
      loadApp c.surroundings.modules c.surroundings.store.disk c.settings target
    (records, found.mapError (.unloadable target))

/-- Finds the host and goes on with it.  What is logged on the way shows also if there is none.  A
crash that a load is not prepared for ends the program. -/
def Context.hosting (c : Context) (o : Output) (next : Output → App → Result) : Result :=
  let (records, found) := c.host
  let o := c.logged o records
  match found with
  | .ok app => next o app
  | .error fault =>
    match fault.unexpected? with
    | some crash => o.fail (.host crash)
    | none => (o.complain ("Error: " ++ fault.message)).exit 2

/-- Prints the statements. -/
def Context.parse (c : Context) (o : Output) : Result :=
  c.parsing o fun o statements => (o.print ((programJson statements).write .document)).exit 0

/-- Tells what keeps the statements from running. -/
def Context.check (c : Context) (o : Output) : Result :=
  c.hosting o fun o app => c.parsing o fun o statements =>
    match Run.check app.registry statements with
    | [] => (o.print s!"OK: {statements.length} statement(s)").exit 0
    | issues => (issues.foldl (fun o i => o.complain ("- " ++ i.message)) o).exit 1

/-- Tells how a run failed. -/
def Output.runFailed (o : Output) (e : AppError) : Result :=
  match e with
  | .malformed e => (o.complain ("Syntax error: " ++ e.message)).exit 1
  | .run (.invalid issues) => (issues.foldl (fun o i => o.complain ("- " ++ i.message)) o).exit 1
  | .run (.directory fault) => o.fail (.run (.directory fault))
  | .run (.aborted message) => o.fail (.run (.aborted message))
  | .run e => (o.complain ("Error: " ++ e.message)).exit 1
  | .duration f => o.fail (.duration f)

/-- Runs the source and prints the values of the variables. -/
def Context.run (c : Context) (o : Output) : Result :=
  c.hosting o fun o app =>
    match readSource c.surroundings c.request with
    | .error f => o.fail f
    | .ok source =>
      let running := app.parseAndRun c.surroundings.store.disk source o.world
      let o := c.logged { o with world := running.world } (Run.recordsOf running.events)
      match running.result with
      | .error e => o.runFailed e
      | .ok bindings => (o.print ((bindingsJson bindings).write .document)).exit 0

/-- Prints the help text of the host. -/
def Context.commands (c : Context) (o : Output) : Result :=
  c.hosting o fun o app => ({ o with world := app.showHelp o.world } : Output).exit 0

/-- Does what a request asks for. -/
def Context.perform (c : Context) (o : Output) : Result :=
  match c.request.subcommand with
  | .parse => c.parse o
  | .check => c.check o
  | .run => c.run o
  | .commands => c.commands o

/-- Answers a request: loads the settings, configures logging, and does what is asked for. -/
def answer (s : Surroundings) (r : Request) : Result :=
  let o : Output := ⟨"", .initial⟩
  match (Settings.Loader.ofFiles s.store []).load s.store with
  | (_, _, .error e) => o.fail (.settings e)
  | (_, store, .ok settings) =>
    let log := (Log.State.initial.configure settings.name settings.logLevel.name
      settings.logFormat).1
    Context.perform ⟨{ s with store := store }, settings, log, r⟩ o

/-- Runs the program with the arguments of the command line. -/
def program (s : Surroundings) (arguments : List String) : Except Refusal Result :=
  (readRequest arguments).map (answer s)

end Runbook.Cli
