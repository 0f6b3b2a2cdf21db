/-
  Telling how long things took.

  `timings` are the records of a completed run: the time of every command and
  the total.  `measure` calls an action and records its time.
-/
import Runbook.Json.Printer
import Runbook.Run.Duration
import Runbook.Run.Execute

namespace Runbook.Run

/-- The words of every time. -/
def timesInWords : List (String × Milliseconds) → Except DurationFault (List (String × Json))
  | [] => .ok []
  | (name, m) :: times => do
    let text ← m.text
    return (name, .str text) :: (← timesInWords times)

/-- The records of the times of commands and of their total; the first fault ends them. -/
def timings (logger : String) (times : Table String Milliseconds) (total : Milliseconds) :
    List Log.Record × Option DurationFault :=
  let record (message : String) : Log.Record := ⟨logger, .info, message⟩
  match timesInWords times.entries with
  | .error e => ([], some e)
  | .ok fields =>
    let first := record ("Command execution times: " ++ (Json.obj fields).write .summary)
    match total.text with
    | .error e => ([first], some e)
    | .ok text => ([first, record ("Total execution time: " ++ text)], none)

/-- The records of the times of a completed run, up to the first time that has no words. -/
def Summary.timings (logger : String) (s : Summary) : List Log.Record × Option DurationFault :=
  Run.timings logger (s.times.map fun _ (x : Rat) => .measured x) (.measured s.total)

/-- How a measured call ends. -/
inductive MeasureError where
  | fault (f : Fault)
  | aborted (message : String)
  | duration (f : DurationFault)

/-- Calls an action with one argument and records under a label how long it took. -/
def measure (label : String) (action : Action) (disk : Disk) (argument : String) (w : World) :
    List Log.Record × Except MeasureError Value :=
  let reply := action disk ⟨[argument], .empty⟩ w.host
  match reply.outcome with
  | .raised f => ([], .error (.fault f))
  | .aborted message => ([], .error (.aborted message))
  | .returned v =>
    match (Milliseconds.measured (elapsed w.clock (w.clock + reply.took))).text with
    | .error f => ([], .error (.duration f))
    | .ok text =>
      ([⟨Log.utilsLogger, .info, s!"run_and_measure: {label} took {text}"⟩], .ok v)

end Runbook.Run
