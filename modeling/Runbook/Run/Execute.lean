/-
  Running statements.

  Statements run one after another.  Each resolves its arguments with the values
  that the variables have by then, calls its command and, if it has a target,
  keeps the result.  The first failure ends the run.  With a working directory,
  every call starts there and the directory before it is current again after it.

  * `step` runs one statement, `runFrom` a list, `execute` a program;
  * a run leaves `Progress` behind, also when it fails: the bindings, the times,
    the world and the events so far;
  * `runFrom_append`: **running two lists in a row is running the first and then,
    if it completes, the second.**
-/
import Runbook.Run.Check

namespace Runbook.Run

open Script (Statement)

/-- Something that a run shows: a log record, or the call of a command. -/
inductive Event where
  | logged (record : Log.Record)
  | invoked (command : String) (arguments : Arguments)

/-- The log records among events, in order. -/
def recordsOf (events : List Event) : List Log.Record :=
  events.filterMap fun e => match e with
    | .logged r => some r
    | .invoked _ _ => none

/-- What a run works with and does not change. -/
structure Setup where
  registry : Registry
  disk : Disk
  workingDir : Option String
  logger : String

/-- How far a run has come.  A time is that of the latest call of a command, in milliseconds. -/
structure Progress where
  bindings : Bindings
  times : Table String Rat
  world : World
  events : List Event

/-- Why a run failed. -/
inductive RunError where
  /-- Statements that cannot run. -/
  | invalid (issues : List Issue)
  /-- A reference to a variable without a value, in the statement at an index. -/
  | undefinedVariable (name : String) (index : Nat) (command : String)
  /-- A fault of the action of the statement at an index. -/
  | action (command : String) (index : Nat) (fault : Fault)
  /-- The working directory cannot be entered. -/
  | directory (fault : PathFault)
  /-- An action ended the run. -/
  | aborted (message : String)

/-- The wording of an error. -/
def RunError.message : RunError → String
  | invalid issues => failureMessage issues
  | undefinedVariable name index command =>
    Script.undefinedMessage name ++ s!" (statement {index}: {command})"
  | action command index fault =>
    s!"Command '{command}' (statement {index}) failed: {fault.message}"
  | directory fault => fault.message
  | aborted message => message

/-! ## One statement -/

/-- What is logged before a statement's command is called. -/
def executing (logger : String) (s : Statement) : Log.Record :=
  match s.target with
  | some name => ⟨logger, .info, s!"Executing assignment: {name} = {s.command.text}"⟩
  | none => ⟨logger, .info, s!"Executing: {s.command.text}"⟩

/-- The directory in which a call starts; an empty working directory is none. -/
def Setup.start (setup : Setup) (d : Place) : Except PathFault Place :=
  match setup.workingDir with
  | none => .ok d
  | some path => if path = "" then .ok d else setup.disk.enter d path

/-- The directory after a call that left `left`, when `before` was current before it. -/
def Setup.finish (setup : Setup) (before left : Place) : Place :=
  match setup.workingDir with
  | none => left
  | some path => if path = "" then left else before

/-- Calls an action in a directory: its outcome and the world afterwards. -/
def Setup.call (setup : Setup) (d : Definition) (args : Arguments) (start : Place)
    (w : World) : Outcome × World :=
  let reply := d.action setup.disk args { w.host with directory := start }
  let finish := setup.finish w.host.directory reply.host.directory
  (reply.outcome, ⟨w.clock + reply.took, { reply.host with directory := finish }⟩)

/-- The bindings after a statement whose command returned a value. -/
def assign (bindings : Bindings) (target : Option String) (v : Value) : Bindings :=
  match target with
  | none => bindings
  | some name => bindings.insert name v

/-- Runs the statement at an index. -/
def step (setup : Setup) (index : Nat) (s : Statement) (p : Progress) :
    Progress × Option RunError :=
  let name := s.command.name
  match setup.registry.find? name with
  | none => (p, some (.invalid [⟨.unknownCommand, index, name⟩]))
  | some d =>
    match s.command.resolve p.bindings with
    | .error x => (p, some (.undefinedVariable x index name))
    | .ok args =>
      let p := { p with events := p.events ++ [.logged (executing setup.logger s)] }
      match setup.start p.world.host.directory with
      | .error fault => (p, some (.directory fault))
      | .ok start =>
        let (outcome, world) := setup.call d args start p.world
        let time := elapsed p.world.clock world.clock
        let p := { p with world := world, events := p.events ++ [.invoked name args] }
        match outcome with
        | .raised fault => (p, some (.action name index fault))
        | .aborted message => (p, some (.aborted message))
        | .returned v =>
          ({ p with bindings := assign p.bindings s.target v, times := p.times.insert name time },
            none)

/-! ## Whole runs -/

/-- Runs statements, the first of which has a given index, up to the first that fails. -/
def runFrom (setup : Setup) : (index : Nat) → List Statement → Progress → Progress × Option RunError
  | _, [], p => (p, none)
  | index, s :: ss, p =>
    match step setup index s p with
    | (p, some e) => (p, some e)
    | (p, none) => runFrom setup (index + 1) ss p

/-- **A run of two lists in a row.** -/
theorem runFrom_append (setup : Setup) (index : Nat) (ss ts : List Statement) (p : Progress) :
    runFrom setup index (ss ++ ts) p =
      match runFrom setup index ss p with
      | (p, some e) => (p, some e)
      | (p, none) => runFrom setup (index + ss.length) ts p := by
  induction ss generalizing index p with
  | nil => rfl
  | cons s ss ih =>
    simp only [List.cons_append, runFrom]
    cases step setup index s p with
    | mk q e =>
      cases e with
      | some e => rfl
      | none =>
        simp only [ih]
        rw [List.length_cons, Nat.add_right_comm, Nat.add_assoc]

/-- The outcome of a run that completed, with the time of the latest call of every command and of the
whole run, in milliseconds. -/
structure Summary where
  bindings : Bindings
  times : Table String Rat
  total : Rat

/-- Something that happened in a world: what it left behind, what it showed, and how it ended. -/
structure Episode (ε α : Type) where
  world : World
  events : List Event
  result : Except ε α

/-- Runs statements in a world, with initial values of variables. -/
def execute (setup : Setup) (statements : List Statement) (bindings : Bindings) (w : World) :
    Episode RunError Summary :=
  match runFrom setup 0 statements ⟨bindings, .empty, w, []⟩ with
  | (p, some e) => ⟨p.world, p.events, .error e⟩
  | (p, none) => ⟨p.world, p.events, .ok ⟨p.bindings, p.times, elapsed w.clock p.world.clock⟩⟩

end Runbook.Run
