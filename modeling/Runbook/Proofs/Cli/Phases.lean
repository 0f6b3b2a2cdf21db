/-
  The phases of a request.

  Settings are loaded, a host is found, a source is read, and then statements are
  printed, checked or run.  A phase that fails keeps the later ones from happening.

  * `answer_eq`: a request is performed in the context that its settings give;
  * `hosting_eq`, `run_eq`: the subcommands phase by phase, where `conclude` is what
    becomes of a run;
  * `result_parseAndRun`: the result of a run of statements that pass the check.
-/
import Mathlib
import Runbook.Cli.Program
import Runbook.Proofs.App.Gate
import Runbook.Settings.Stock

namespace Runbook

open Run (Episode Issue check)
open Script (Statement)

/-! ## Runs of an application -/

namespace App

variable {app : App} {source : String} {ss : List Statement}

/-- The result of statements without issues: that of their run, unless a time cannot be told. -/
theorem result_parseAndRun (hs : Script.parse source = .ok ss) (hc : check app.registry ss = [])
    (disk : Disk) (w : World) : (app.parseAndRun disk source w).result =
      match (app.execute disk ss .empty w).result with
      | .error e => .error (.run e)
      | .ok summary =>
        match (app.timings summary).2 with
        | none => .ok summary.bindings
        | some f => .error (.duration f) := by
  have hv : app.validate ss = ([], .ok ()) := by simp [validate, hc]
  simp only [parseAndRun, hs, hv]
  cases (app.execute disk ss .empty w).result with
  | error e => rfl
  | ok summary => rfl

theorem result_parseAndRun_malformed {e : Source.SyntaxError} (hs : Script.parse source = .error e)
    (app : App) (disk : Disk) (w : World) :
    (app.parseAndRun disk source w).result = .error (.malformed e) ∧
      Run.callsOf (app.parseAndRun disk source w).events = [] ∧
      (app.parseAndRun disk source w).world = w := by
  simp [parseAndRun, hs, Run.callsOf]

/-- Statements without issues are neither malformed nor invalid, whatever their actions do. -/
theorem result_parseAndRun_ne (hs : Script.parse source = .ok ss) (hc : check app.registry ss = [])
    (disk : Disk) (w : World) :
    (∀ e, (app.parseAndRun disk source w).result ≠ .error (.malformed e)) ∧
      ∀ issues, (app.parseAndRun disk source w).result ≠ .error (.run (.invalid issues)) := by
  constructor
  · intro e he
    rw [result_parseAndRun hs hc] at he
    split at he
    · cases he
    · split at he <;> cases he
  · intro issues he
    have hk : ∀ s ∈ ss, s.command.name ∈ app.registry.keys := fun s hmem =>
      Classical.not_not.1 fun hn => Run.check_eq_nil_iff.1 hc s hmem _ (.unregistered hn)
    have hrun : (Run.execute (app.setup disk) ss .empty w).result = .error (.invalid issues) :=
      (parseAndRun_error_run_iff hs hc).1 he
    exact Run.execute_ne_invalid hk .empty w issues hrun

end App

namespace Cli

/-! ## Contexts -/

/-- The context of a request, if its settings can be loaded. -/
def contextOf (s : Surroundings) (r : Request) : Except Settings.LoadError Context :=
  match (Settings.Loader.ofFiles s.store []).load s.store with
  | (_, _, .error e) => .error e
  | (_, store, .ok settings) =>
    .ok ⟨{ s with store := store }, settings,
      (Log.State.initial.configure settings.name settings.logLevel.name settings.logFormat).1, r⟩

/-- The output of a program that has just started. -/
def Output.initial : Output := ⟨"", .initial⟩

theorem answer_eq (s : Surroundings) (r : Request) :
    answer s r = match contextOf s r with
      | .error e => Output.initial.fail (.settings e)
      | .ok c => c.perform .initial := by
  unfold answer contextOf
  obtain ⟨l, store, e | settings⟩ := (Settings.Loader.ofFiles s.store []).load s.store <;> rfl

theorem request_of_contextOf {s : Surroundings} {r : Request} {c : Context}
    (h : contextOf s r = .ok c) : c.request = r := by
  unfold contextOf at h
  split at h
  · cases h
  · cases h; rfl

namespace Context

variable (c : Context) (o : Output)

/-- The output once the host is found. -/
def hosted : Output := c.logged o c.host.1

/-- The source text. -/
def source : Except Failure String := readSource c.surroundings c.request

/-- The source is read and is a program. -/
def Accepts (ss : List Statement) : Prop :=
  ∃ source, c.source = .ok source ∧ Script.parse source = .ok ss

/-- The run of a source by an application. -/
def running (app : App) (source : String) : Episode AppError Bindings :=
  app.parseAndRun c.surroundings.store.disk source .initial

/-- What becomes of a run. -/
def conclude (running : Episode AppError Bindings) : Result :=
  let o := c.logged { o with world := running.world } (Run.recordsOf running.events)
  match running.result with
  | .error e => o.runFailed e
  | .ok bindings => (o.print ((bindingsJson bindings).write .document)).exit 0

/-- The exit code or the failure that an error of a run makes. -/
def exitOf : AppError → Except Failure Nat
  | .malformed _ => .ok 1
  | .duration f => .error (.duration f)
  | .run (.directory fault) => .error (.run (.directory fault))
  | .run (.aborted message) => .error (.run (.aborted message))
  | .run _ => .ok 1

theorem exit_conclude (running : Episode AppError Bindings) :
    (c.conclude o running).exit = match running.result with
      | .ok _ => .ok 0
      | .error e => exitOf e := by
  unfold conclude
  rcases running.result with e | bindings
  · rcases e with e | e | f
    · rfl
    · cases e <;> rfl
    · rfl
  · rfl

theorem hosting_eq (next : Output → App → Result) : c.hosting o next =
    match c.host.2 with
    | .ok app => next (c.hosted o) app
    | .error fault =>
      match fault.unexpected? with
      | some crash => (c.hosted o).fail (.host crash)
      | none => ((c.hosted o).complain ("Error: " ++ fault.message)).exit 2 := rfl

theorem parsing_eq (next : Output → List Statement → Result) : c.parsing o next =
    match c.source with
    | .error f => o.fail f
    | .ok source =>
      match Script.parse source with
      | .error e => (o.complain ("Syntax error: " ++ e.message)).exit 1
      | .ok statements => next (c.logged o (Script.notices source)) statements := rfl

theorem run_eq : c.run .initial =
    match c.host.2 with
    | .ok app =>
      match c.source with
      | .error f => (c.hosted .initial).fail f
      | .ok source => c.conclude (c.hosted .initial) (c.running app source)
    | .error fault =>
      match fault.unexpected? with
      | some crash => (c.hosted .initial).fail (.host crash)
      | none => ((c.hosted .initial).complain ("Error: " ++ fault.message)).exit 2 := rfl

end Context

/-- A desk with one host, which is the member `a` of the module `m`. -/
def desk : Surroundings :=
  ⟨⟨.empty, .empty, none, .stock⟩, [],
    [⟨"m", fun _ => ([("a", .app App.twoCommands)], []), fun _ => none⟩], "now"⟩

theorem loadModule_desk (disk : Disk) (settings : Settings) :
    loadModule desk.modules disk settings "m" = ([], .ok [("a", .app App.twoCommands)]) := by
  have hname : "m".splitOn "." = ["m"] := by cbv
  rw [loadModule, hname]
  rfl

/-- The settings of the desk load, and so does its host if a request names it. -/
theorem contextOf_desk (r : Request) : ∃ c, contextOf desk r = .ok c ∧
    (r.app = some "m:a" → c.host = ([], .ok App.twoCommands)) := by
  obtain ⟨l, store, settings, h⟩ : ∃ l store settings,
      (Settings.Loader.ofFiles desk.store []).load desk.store = (l, store, .ok settings) :=
    ⟨_, _, _, rfl⟩
  refine ⟨_, by rw [contextOf, h], fun happ => ?_⟩
  have hload : loadApp desk.modules store.disk settings "m:a" = ([], .ok App.twoCommands) := by
    have hsplit : splitTarget "m:a" = .ok ("m", "a") := rfl
    simp only [loadApp, hsplit, loadModule_desk]
    rfl
  have htarget : ((some "m:a").filter (· ≠ "") <|> settings.app).filter (· ≠ "") = some "m:a" := rfl
  simp only [Context.host, happ, htarget, hload]
  rfl

end Cli

end Runbook
