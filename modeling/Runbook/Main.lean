/-
  The command line as a program.

  It gathers what `Cli.program` works on, which are the arguments, the variables
  of the process, what lies at the paths that matter, the standard input and the
  time, and writes what comes back.
-/
import Runbook.Cli.Program
import Runbook.Host.Deploy
import Runbook.Settings.Stock
import Std.Time.Format

namespace Runbook.Main

/-- The assignment that an entry of the environment block makes. -/
def assignment? (bytes : List UInt8) : Option (String × String) :=
  match Text.Utf8.decode bytes with
  | .error _ => none
  | .ok cs =>
    match cs.dropWhile (· ≠ '=') with
    | [] => none
    | _ :: value => some (String.ofList (cs.takeWhile (· ≠ '=')), String.ofList value)

/-- The variables of an environment block, whose entries end in zero bytes. -/
def environmentOf (block : List UInt8) : Settings.Environment :=
  .ofList ((block.splitOnP (· == 0)).filterMap assignment?)

/-- The bytes of a file, if it can be read. -/
def bytesOf? (path : String) : IO (Option (List UInt8)) := do
  try return some (← IO.FS.readBinFile path).toList
  catch _ => return none

/-- Enters in a disk what a path leads to and what it passes. -/
def observe (disk : Disk) (path : String) : IO Disk :=
  (Path.stages path).foldlM
    (fun disk stage => do
      let place := Place.root.atPath stage
      if ← (System.mkFilePath [stage]).isDir then return disk.addDirectory place
      match ← bytesOf? stage with
      | some bytes => return disk.addFile place bytes
      | none => return disk)
    disk

/-- The path of the directory that the module of a target would be. -/
def directoryOf (target : String) : String :=
  "/".intercalate ((String.ofList (target.toList.takeWhile (· ≠ ':'))).splitOn ".")

/-- The store of the settings, with the files that it is read from, the source file, the working
directory and the directories that targets name. -/
def storeFor (r : Cli.Request) : IO Settings.Store := do
  let block ← bytesOf? "/proc/self/environ"
  let store : Settings.Store := ⟨environmentOf (block.getD []), .empty, none, .stock⟩
  let disk ← (store.defaultFiles ++ r.file.toList).foldlM observe store.disk
  let store := { store with disk := disk }
  match ((Settings.Loader.ofFiles store []).load store).2.2 with
  | .error _ => return store
  | .ok settings =>
    let targets := r.app.toList ++ settings.app.toList
    let disk ← (settings.workingDir.toList ++ targets.map directoryOf).foldlM observe disk
    return { store with disk := disk }

/-- What the program finds when it starts. -/
def surroundingsFor (r : Cli.Request) : IO Cli.Surroundings := do
  let input ← if r.readsInput then (← IO.getStdin).readBinToEnd else pure .empty
  let now ← Std.Time.PlainDateTime.now
  return ⟨← storeFor r, input.toList, [Deploy.hostModule], now.format "uuuu-MM-dd HH:mm:ss,SSS"⟩

/-- Writes what the program wrote and returns its exit code. -/
def finish (result : Cli.Result) : IO UInt32 := do
  IO.print result.output.world.host.printed
  IO.eprint result.output.errors
  match result.exit with
  | .ok code => return code.toUInt32
  | .error failure => do
    IO.eprintln failure.message
    return 1

/-- How the program is called. -/
def usage : String :=
  "usage: runbook (parse|check|run|commands) [-f FILE] [-c COMMAND] [--app MODULE:ATTR]"

end Runbook.Main

open Runbook in
/-- Runs the program. -/
def main (arguments : List String) : IO UInt32 := do
  match Cli.readRequest arguments with
  | .error .help => IO.println Main.usage; return 0
  | .error .usage => IO.eprintln Main.usage; return 2
  | .ok request => Main.finish (Cli.answer (← Main.surroundingsFor request) request)
