/-
  A host's application: a name, settings and commands.

  `parseAndRun` takes a source text through parsing, checking and running; nothing
  runs if the check finds an issue, and the times are told in the end.  `run`
  takes the arguments of a process, and prints the help text if there are none or
  one asks for it.
-/
import Runbook.Run.Timing
import Runbook.Script.Parse
import Runbook.Settings.Fields

namespace Runbook

open Run (Episode Event)

/-- An application. -/
structure App where
  name : String
  settings : Settings
  registry : Registry
  registryLogger : String
  workingDir : Option String

/-- Why an application gives no result. -/
inductive AppError where
  | malformed (e : Source.SyntaxError)
  | run (e : Run.RunError)
  | duration (f : Run.DurationFault)

/-- The wording of an error. -/
def AppError.message : AppError → String
  | malformed e => e.message
  | run e => e.message
  | duration f => f.message

namespace App

/-- An application without commands.  An empty name or working directory is taken from the
settings. -/
def ofSettings (settings : Settings) (name workingDir : Option String) : App :=
  let name := (name.filter (· ≠ "")).getD settings.name
  ⟨name, settings, .empty, Log.loggerOf name, workingDir.filter (· ≠ "") <|> settings.workingDir⟩

/-- The application's logger. -/
def logger (app : App) : String := Log.loggerOf app.name

/-- Registers a command. -/
def register (app : App) (name : String) (d : Definition) : App × List Log.Record :=
  let (registry, records) := app.registry.register app.registryLogger name d
  ({ app with registry := registry }, records)

/-- Registers an action as a command. -/
def registerAction (app : App) (name : String) (action : Action) (description : Option String)
    (arguments : Option (List String)) (returns : Option String) : App × List Log.Record :=
  let (registry, records) :=
    app.registry.registerAction app.registryLogger name action description arguments returns
  ({ app with registry := registry }, records)

/-- The help text. -/
def help (app : App) : String := app.registry.help app.name

/-- What the application's runs work with. -/
def setup (app : App) (disk : Disk) : Run.Setup :=
  ⟨app.registry, disk, app.workingDir, app.logger⟩

/-- The records of a failed check. -/
def failureRecords (app : App) (issues : List Run.Issue) : List Log.Record :=
  ⟨app.logger, .error, s!"Validation failed with {issues.length} error(s):"⟩ ::
    issues.map fun i => ⟨app.logger, .error, "  - " ++ i.message⟩

/-- Checks statements: the records of the check, and the error if it fails. -/
def validate (app : App) (statements : List Script.Statement) :
    List Log.Record × Except Run.RunError Unit :=
  match Run.check app.registry statements with
  | [] => ([], .ok ())
  | issues => (app.failureRecords issues, .error (.invalid issues))

/-- Runs statements without checking them. -/
def execute (app : App) (disk : Disk) (statements : List Script.Statement) (bindings : Bindings)
    (w : World) : Episode Run.RunError Run.Summary :=
  Run.execute (app.setup disk) statements bindings w

/-- The records of a run's times, if the settings ask for them, and what is wrong with a time. -/
def timings (app : App) (s : Run.Summary) : List Log.Record × Option Run.DurationFault :=
  if app.settings.showTimings then s.timings app.logger else ([], none)

/-- Parses, checks and runs a source text; the values of its variables are the result. -/
def parseAndRun (app : App) (disk : Disk) (source : String) (w : World) :
    Episode AppError Bindings :=
  let first : List Log.Record := [⟨app.logger, .info, "Parsing: " ++ source⟩]
  match Script.parse source with
  | .error e => ⟨w, first.map .logged, .error (.malformed e)⟩
  | .ok statements =>
    let parsing := first ++ Script.notices source ++ [Script.parsed app.logger statements.length]
    match app.validate statements with
    | (records, .error e) => ⟨w, (parsing ++ records).map .logged, .error (.run e)⟩
    | (_, .ok ()) =>
      let running := app.execute disk statements .empty w
      let events := parsing.map Event.logged ++ running.events
      match running.result with
      | .error e => ⟨running.world, events, .error (.run e)⟩
      | .ok s =>
        let (records, fault) := app.timings s
        let result := match fault with
          | none => .ok s.bindings
          | some f => .error (.duration f)
        ⟨running.world, events ++ records.map .logged, result⟩

/-- Prints the help text. -/
def showHelp (app : App) (w : World) : World := { w with host := w.host.printLine app.help }

/-- The arguments that ask for help. -/
def helpFlags : List String := ["--help", "-h"]

/-- Runs the source text that the arguments of a process make, joined by spaces. -/
def run (app : App) (disk : Disk) (arguments : List String) (w : World) :
    Episode AppError Bindings :=
  if arguments.isEmpty || arguments.any (· ∈ helpFlags) then
    ⟨app.showHelp w, [], .ok .empty⟩
  else app.parseAndRun disk (" ".intercalate arguments) w

end App

end Runbook
