/-
  A small host: it deploys services with a configuration.

  `get-config` returns a configuration for an environment, `deploy` deploys the
  services that it is given, and `echo` prints its arguments.
-/
import Runbook.Cli.Target
import Runbook.Log.Handler

namespace Runbook.Deploy

/-- A reply that takes no time. -/
def reply (v : Value) (host : Host) : Reply := ⟨.returned v, 0, host⟩

/-- The configuration of an environment, which has more replicas in production. -/
def config : Action := fun _ args host =>
  let env := (args.named.find? "env").getD "dev"
  let replicas : Int := if env = "prod" then 3 else 1
  reply (.object [("env", .str env), ("replicas", .int replicas)]) host

/-- Deploys every service. -/
def deploy : Action := fun _ args host =>
  let config := (args.named.find? "config").getD "\x7b\x7d"
  reply .null <|
    args.positional.foldl (fun h service => h.printLine s!"deploying {service} with {config}") host

/-- Prints the arguments. -/
def echo : Action := fun _ args host =>
  let named : Value := .object (args.named.entries.map fun (k, v) => (k, .str v))
  reply .null (host.printLine (" ".intercalate args.positional ++ " " ++ named.display))

/-- The commands of the host. -/
def commands : List (String × Definition) :=
  [("get-config", ⟨config, some "Load deployment settings for an environment",
      ["env: target environment (default: dev)"], some "Config object"⟩),
    ("deploy", ⟨deploy, some "Deploy services with a configuration",
      ["<service>...: services to deploy", "config: output of get-config"], none⟩),
    ("echo", ⟨echo, some "Print the arguments", [], none⟩)]

/-- The name of the host. -/
def name : String := "deploy"

/-- The host as an application. -/
def app (settings : Settings) : App :=
  commands.foldl (fun app (name, d) => (app.register name d).1)
    (.ofSettings settings (some name) none)

/-- The module of the host, which holds the application, the functions behind it, and what it takes
from elsewhere. -/
def hostModule : Cli.Module where
  name := "deploy_host"
  load settings :=
    (("app", .app (app settings)) :: ("Yesod", .other "type") ::
      Cli.membersOfType "module" ["asyncio", "sys"] ++
      Cli.membersOfType "function" ["configure_logging", "get_config", "deploy", "echo", "main"] ++
      Cli.fileMembers,
    [])

/-- The host as a program: its log lines, the printed text and, if it fails, the error.  It prints
the values of the variables, if there are any. -/
def program (timestamp : String) (arguments : List String) :
    String × String × Option AppError :=
  let app := app Settings.defaults
  let log := (Log.State.initial.configure app.name Log.Level.info.name .text).1
  let running := app.run .empty arguments .initial
  let lines := log.lines timestamp (Run.recordsOf running.events)
  let host := running.world.host
  match running.result with
  | .error e => (lines, host.printed, some e)
  | .ok bindings =>
    let shown : Value := .object bindings.entries
    (lines, (if bindings.entries.isEmpty then host else host.printLine shown.display).printed, none)

end Runbook.Deploy
