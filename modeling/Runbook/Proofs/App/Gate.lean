/-
  The gate that a source text passes before anything of it runs.

  `parseAndRun` runs all of the statements or none: those that a check finds
  something wrong with are told together, and the world is as it was.

  * `parseAndRun_error_run_iff`: once statements pass the check, what is wrong with
    the text is what is wrong with their run;
  * `parseAndRun_gate`: **a text is refused exactly if one of its statements
    offends, with one issue for each that does.**
-/
import Mathlib.Tactic.Common
import Runbook.App.Basic
import Runbook.Proofs.Run.Check

namespace Runbook.App

open Run (Event Issue Offends RunError callsOf check)
open Script (Statement parse)

variable {app : App} {disk : Disk} {source : String} {ss : List Statement} {w : World}

/-- Statements with issues are refused, and nothing happens. -/
theorem parseAndRun_of_issues (hs : parse source = .ok ss) (hc : check app.registry ss ≠ [])
    (disk : Disk) (w : World) :
    let run := app.parseAndRun disk source w
    run.result = .error (.run (.invalid (check app.registry ss))) ∧
      callsOf run.events = [] ∧ run.world = w := by
  have hlog (records : List Log.Record) : callsOf (records.map Event.logged) = [] := by
    simp [callsOf]
  have hv : app.validate ss = (app.failureRecords (check app.registry ss),
      .error (.invalid (check app.registry ss))) := by
    unfold validate
    cases h : check app.registry ss with
    | nil => exact absurd h hc
    | cons => rfl
  simp only [parseAndRun, hs, hv]
  exact ⟨trivial, hlog _, trivial⟩

/-- Statements without issues run, and the run's error is that of the text. -/
theorem parseAndRun_error_run_iff (hs : parse source = .ok ss) (hc : check app.registry ss = [])
    {e : RunError} : (app.parseAndRun disk source w).result = .error (.run e) ↔
      (app.execute disk ss .empty w).result = .error e := by
  have hv : app.validate ss = ([], .ok ()) := by simp [validate, hc]
  simp only [parseAndRun, hs, hv]
  cases (app.execute disk ss .empty w).result with
  | error e' => simp
  | ok s => cases hf : (app.timings s).2 <;> simp [hf]

/-- **The gate.**  A text that is accepted is refused as invalid exactly if one of its statements
offends.  The error then has one issue for each statement that does, in their order; no action was
called and the world is as it was.  Statements of which none offends are never found invalid once
they run, whatever their actions do. -/
theorem parseAndRun_gate (app : App) (disk : Disk) (w : World) (hs : parse source = .ok ss) :
    ((∃ issues, (app.parseAndRun disk source w).result = .error (.run (.invalid issues))) ↔
      ∃ s ∈ ss, ∃ p, Offends app.registry s p) ∧
    (∀ issues, (app.parseAndRun disk source w).result = .error (.run (.invalid issues)) →
      (issues.Pairwise fun i j => i.index < j.index) ∧
      (∀ i, i ∈ issues ↔ ∃ s, ss[i.index]? = some s ∧ i.command = s.command.name ∧
        Offends app.registry s i.problem) ∧
      callsOf (app.parseAndRun disk source w).events = [] ∧
      (app.parseAndRun disk source w).world = w) ∧
    ((∀ s ∈ ss, ∀ p, ¬ Offends app.registry s p) → ∀ bindings w' issues,
      (app.execute disk ss bindings w').result ≠ .error (.invalid issues)) := by
  have hrun : (∀ s ∈ ss, ∀ p, ¬ Offends app.registry s p) → ∀ bindings w' issues,
      (app.execute disk ss bindings w').result ≠ .error (.invalid issues) := by
    intro h bindings w' issues
    have hk : ∀ s ∈ ss, s.command.name ∈ app.registry.keys := fun s hs =>
      Classical.not_not.1 fun hn => h s hs _ (.unregistered hn)
    change (Run.execute (app.setup disk) ss bindings w').result ≠ _
    exact Run.execute_ne_invalid hk bindings w' issues
  have hnone : check app.registry ss = [] → ∀ issues,
      (app.parseAndRun disk source w).result ≠ .error (.run (.invalid issues)) := by
    intro hc issues he
    exact hrun (Run.check_eq_nil_iff.1 hc) _ _ issues ((parseAndRun_error_run_iff hs hc).1 he)
  refine ⟨⟨?_, ?_⟩, fun issues he => ?_, hrun⟩
  · rintro ⟨issues, he⟩
    have hc : check app.registry ss ≠ [] := fun hc => hnone hc issues he
    obtain ⟨i, hi⟩ := List.exists_mem_of_ne_nil _ hc
    obtain ⟨s, hs, -, hp⟩ := Run.mem_check.1 hi
    exact ⟨s, List.mem_of_getElem? hs, i.problem, hp⟩
  · rintro ⟨s, hmem, p, hp⟩
    have hc : check app.registry ss ≠ [] := fun hc => Run.check_eq_nil_iff.1 hc s hmem p hp
    exact ⟨_, (parseAndRun_of_issues hs hc disk w).1⟩
  · have hc : check app.registry ss ≠ [] := fun hc => hnone hc issues he
    obtain ⟨hresult, hcalls, hworld⟩ := parseAndRun_of_issues hs hc disk w
    obtain rfl : check app.registry ss = issues := by simpa [he] using hresult.symm
    exact ⟨Run.pairwise_check, fun i => Run.mem_check, hcalls, hworld⟩

/-- An application with a command that may stand bare and one that may not. -/
def twoCommands : App :=
  let answer : Action := fun _ _ host => ⟨.returned .null, 0, host⟩
  let r : Registry :=
    ⟨[("ping", ⟨answer, none, [], none⟩), ("get", ⟨answer, none, [], some "text"⟩)], by decide⟩
  ⟨"two", .defaults, r, Log.registryLogger, none⟩

theorem parseAndRun_gate_twoCommands :
    parse "(ping) (nope) (get)" =
      .ok [⟨none, "ping", [], .empty⟩, ⟨none, "nope", [], .empty⟩, ⟨none, "get", [], .empty⟩] ∧
    ∃ issues,
      (twoCommands.parseAndRun ⟨[], .empty⟩ "(ping) (nope) (get)" .initial).result =
        .error (.run (.invalid issues)) ∧
      ⟨.unknownCommand, 1, "nope"⟩ ∈ issues ∧ ⟨.missingAssignment "text", 2, "get"⟩ ∈ issues ∧
      callsOf (twoCommands.parseAndRun ⟨[], .empty⟩ "(ping) (nope) (get)" .initial).events = [] := by
  have hs : parse "(ping) (nope) (get)" =
      .ok [⟨none, "ping", [], .empty⟩, ⟨none, "nope", [], .empty⟩, ⟨none, "get", [], .empty⟩] := by
    decide +kernel
  have hnope : Offends twoCommands.registry ⟨none, "nope", [], .empty⟩ .unknownCommand :=
    .unregistered (by decide)
  have hget : Offends twoCommands.registry ⟨none, "get", [], .empty⟩ (.missingAssignment "text") :=
    .unassigned (.tail _ (.head _)) rfl (by decide) rfl
  obtain ⟨hrefused, hissues, -⟩ := parseAndRun_gate twoCommands ⟨[], .empty⟩ .initial hs
  obtain ⟨issues, he⟩ := hrefused.2 ⟨_, by simp, _, hnope⟩
  obtain ⟨-, hmem, hcalls, -⟩ := hissues issues he
  exact ⟨hs, issues, he, (hmem _).2 ⟨_, rfl, rfl, hnope⟩, (hmem _).2 ⟨_, rfl, rfl, hget⟩, hcalls⟩

end Runbook.App
