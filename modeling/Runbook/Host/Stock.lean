/-
  Stock actions: behaviours that a host can give to a command without code.

  Every stock action counts its calls under a number of its own, enters them in
  the host's journal under a name, takes a fixed time, and behaves as its
  `Behaviour` says.
-/
import Runbook.Host.Action

namespace Runbook.Stock

/-- The kinds of faults that a failing action can be given. -/
inductive Failing where
  | runtime
  | invalid
  | missingKey
  | system
  | undefinedVariable
  | abort
  deriving DecidableEq

/-- What a stock action does. -/
inductive Behaviour where
  /-- Returns a value. -/
  | const (v : Value)
  /-- Returns its arguments. -/
  | arguments
  /-- Returns its positional arguments, joined. -/
  | join (separator : String)
  /-- Returns its first positional argument. -/
  | first
  /-- Returns a named argument, which must be there. -/
  | named (key : String)
  /-- Returns a named argument, or a default. -/
  | get (key : String) (default : Value)
  /-- Returns how often it was called before. -/
  | count
  /-- Returns the values of a list, one a call. -/
  | sequence (values : List Value)
  /-- Prints its positional arguments on a line. -/
  | print
  /-- Returns the current directory. -/
  | directory
  /-- Changes the current directory. -/
  | enter
  /-- Fails. -/
  | fail (kind : Failing) (message : String)

/-- A map of the arguments of a call. -/
def argumentsValue (args : Arguments) : Value :=
  .object [("positional", .list (args.positional.map .str)),
    ("named", .object (args.named.entries.map fun (k, v) => (k, .str v)))]

/-- The outcome of a failing action. -/
def Failing.outcome (message : String) : Failing → Outcome
  | runtime => .raised (.runtime message)
  | invalid => .raised (.invalid message)
  | missingKey => .raised (.missingKey message)
  | system => .raised (.system message)
  | undefinedVariable => .raised (.undefinedVariable message)
  | abort => .aborted message

/-- Changes the directory to the first argument. -/
def changeDirectory (disk : Disk) (args : Arguments) (host : Host) : Outcome × Host :=
  match args.positional with
  | [] => (.raised .noArgument, host)
  | path :: _ =>
    match disk.enter host.directory path with
    | .ok d => (.returned .null, { host with directory := d })
    | .error fault => (.raised (.path fault), host)

/-- What a behaviour does in its call number `n`, counted from zero. -/
def Behaviour.perform (b : Behaviour) (n : Nat) (disk : Disk) (args : Arguments) (host : Host) :
    Outcome × Host :=
  match b with
  | const v => (.returned v, host)
  | arguments => (.returned (argumentsValue args), host)
  | join separator => (.returned (.str (separator.intercalate args.positional)), host)
  | first =>
    match args.positional with
    | [] => (.raised .noArgument, host)
    | a :: _ => (.returned (.str a), host)
  | named key =>
    match args.named.find? key with
    | none => (.raised (.missingKey key), host)
    | some a => (.returned (.str a), host)
  | get key default => (.returned (((args.named.find? key).map .str).getD default), host)
  | count => (.returned (.int n), host)
  | sequence values =>
    match values[n]? with
    | none => (.raised (.runtime "exhausted"), host)
    | some v => (.returned v, host)
  | print => (.returned .null, host.printLine (" ".intercalate args.positional))
  | directory => (.returned (.str host.directory.path), host)
  | enter => changeDirectory disk args host
  | fail kind message => (kind.outcome message, host)

/-- A call as an action notes it before it does anything else. -/
def note (number : Nat) (name : String) (args : Arguments) (host : Host) : Host :=
  { host with
    counts := host.counts.insert number ((host.counts.find? number).getD 0 + 1)
    journal := host.journal ++ [(name, args)] }

/-- The action of a behaviour, with the number and the name under which it notes its calls and the
milliseconds that they take. -/
def Behaviour.action (b : Behaviour) (number : Nat) (name : String) (took : Nat) : Action :=
  fun disk args host =>
    let n := (host.counts.find? number).getD 0
    let (outcome, host) := b.perform n disk args (note number name args host)
    ⟨outcome, took * millisecond, host⟩

end Runbook.Stock
