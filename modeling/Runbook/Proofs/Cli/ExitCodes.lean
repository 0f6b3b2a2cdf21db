/-
  What exit codes mean.

  The code is 2 without a host, 0 if all that was asked for is done, and else 1;
  unless something happens that the program does not expect, which ends it without
  an exit code.

  * `Context.Hostless`, `Context.Succeeds` and `Context.Escapes` say these things
    without outputs and codes;
  * `exit_of_hostless`, `exit_of_succeeds`, `exit_of_escapes`: what each makes of the
    exit, and `perform_cases`: there is nothing else but the code 1;
  * `exit_codes`: **the exit codes, and all that leaves the program without one**;
  * `exit_codes_missing`: a source file that does not exist is such a thing.
-/
import Runbook.Proofs.Cli.Phases
import Runbook.Proofs.Run.Failure

namespace Runbook

open Run (Completes Offends RunError attempt)
open Script (Statement)

namespace Run

theorem Ending.error?_eq_aborted_iff {e : Ending} {index : Nat} {command message : String} :
    e.error? index command = some (.aborted message) ↔
      ∃ args w, e = .called args (.aborted message) w := by
  cases e with
  | called _ o _ => cases o <;> simp
  | _ => simp

/-- A run has the error of the first statement that does not complete. -/
theorem Completes.execute_next {setup : Setup} {ss after : List Statement} {s : Statement}
    {b b' : Bindings} {w w' : World} {calls : List (String × Arguments)} {e : RunError}
    (h : Completes setup ss b w calls b' w')
    (he : (attempt setup s b' w').error? ss.length s.command.name = some e) :
    (Run.execute setup (ss ++ s :: after) b w).result = .error e :=
  execute_eq_error_iff.2 ⟨ss, s, after, calls, b', w', rfl, h, he⟩

end Run

namespace Cli

namespace Context

variable {c : Context} {app : App} {ss : List Statement}

/-- A subcommand that needs a host has none: none is named, or the one that is does not load. -/
def Hostless (c : Context) : Prop :=
  c.request.subcommand ≠ .parse ∧ ∃ fault, c.host.2 = .error fault ∧ fault.unexpected? = none

/-- An application is to run statements with which there is nothing wrong. -/
structure Starts (c : Context) (app : App) (ss : List Statement) : Prop where
  asked : c.request.subcommand = .run
  host : c.host.2 = .ok app
  accepts : c.Accepts ss
  valid : ∀ s ∈ ss, ∀ p, ¬ Offends app.registry s p

/-- What an application runs statements with. -/
def setup (c : Context) (app : App) : Run.Setup := app.setup c.surroundings.store.disk

/-- All that a subcommand is for is done. -/
inductive Succeeds (c : Context) : Prop
  | parse {ss : List Statement} : c.request.subcommand = .parse → c.Accepts ss → Succeeds c
  | check {app : App} {ss : List Statement} : c.request.subcommand = .check →
      c.host.2 = .ok app → c.Accepts ss → (∀ s ∈ ss, ∀ p, ¬ Offends app.registry s p) → Succeeds c
  | run {app : App} {ss : List Statement} {calls : List (String × Arguments)} {b : Bindings}
      {w : World} : c.Starts app ss → Completes (c.setup app) ss .empty .initial calls b w →
      Succeeds c
  | commands {app : App} : c.request.subcommand = .commands → c.host.2 = .ok app → Succeeds c

/-- Something happens that ends the program without an exit code. -/
inductive Escapes (c : Context) : Failure → Prop
  /-- The code of the host's module fails in a way that a load is not prepared for. -/
  | crashed {fault : HostFault} {crash : Crash} : c.request.subcommand ≠ .parse →
      c.host.2 = .error fault → fault.unexpected? = some crash → Escapes c (.host crash)
  /-- The source cannot be read. -/
  | unreadable {f : Failure} : c.request.subcommand ≠ .commands →
      (c.request.subcommand ≠ .parse → ∃ app, c.host.2 = .ok app) → c.source = .error f →
      Escapes c f
  /-- The working directory cannot be entered. -/
  | unreachable {app : App} {before after : List Statement} {s : Statement}
      {calls : List (String × Arguments)} {b : Bindings} {w : World} {fault : PathFault} :
      c.Starts app (before ++ s :: after) →
      Completes (c.setup app) before .empty .initial calls b w →
      attempt (c.setup app) s b w = .unreachable fault → Escapes c (.run (.directory fault))
  /-- An action aborts the run. -/
  | aborted {app : App} {before after : List Statement} {s : Statement}
      {calls : List (String × Arguments)} {b : Bindings} {w w' : World} {args : Arguments}
      {message : String} : c.Starts app (before ++ s :: after) →
      Completes (c.setup app) before .empty .initial calls b w →
      attempt (c.setup app) s b w = .called args (.aborted message) w' →
      Escapes c (.run (.aborted message))
  /-- A time that is to be told has no words. -/
  | untold {app : App} {ss : List Statement} {summary : Run.Summary} {f : Run.DurationFault} :
      c.Starts app ss → (Run.execute (c.setup app) ss .empty .initial).result = .ok summary →
      (app.timings summary).2 = some f → Escapes c (.duration f)

/-! ## Exits of the subcommands -/

theorem exit_of_host_error {fault : HostFault} (hsub : c.request.subcommand ≠ .parse)
    (hh : c.host.2 = .error fault) : (c.perform .initial).exit =
      match fault.unexpected? with
      | some crash => .error (.host crash)
      | none => .ok 2 := by
  have hexit (next : Output → App → Result) : (c.hosting .initial next).exit =
      match fault.unexpected? with
      | some crash => .error (.host crash)
      | none => .ok 2 := by
    rw [hosting_eq, hh]
    cases h : fault.unexpected? <;> simp [h, Output.fail, Output.exit]
  cases h : c.request.subcommand with
  | parse => exact absurd h hsub
  | check => simp only [perform, h]; exact hexit _
  | run => simp only [perform, h]; exact hexit _
  | commands => simp only [perform, h]; exact hexit _

theorem exit_of_source_error {f : Failure} (hsub : c.request.subcommand ≠ .commands)
    (hh : c.request.subcommand ≠ .parse → ∃ app, c.host.2 = .ok app) (hs : c.source = .error f) :
    (c.perform .initial).exit = .error f := by
  cases h : c.request.subcommand with
  | parse => simp only [perform, h, Context.parse, parsing_eq, hs]; rfl
  | check =>
    obtain ⟨app, hh⟩ := hh (by simp [h])
    simp only [perform, h, Context.check, hosting_eq, hh, parsing_eq, hs]; rfl
  | run =>
    obtain ⟨app, hh⟩ := hh (by simp [h])
    simp only [perform, h, run_eq, hh, hs]; rfl
  | commands => exact absurd h hsub

theorem exit_of_malformed {source : String} {e : Source.SyntaxError}
    (hsub : c.request.subcommand ≠ .commands)
    (hh : c.request.subcommand ≠ .parse → ∃ app, c.host.2 = .ok app) (hs : c.source = .ok source)
    (hp : Script.parse source = .error e) : (c.perform .initial).exit = .ok 1 := by
  cases h : c.request.subcommand with
  | parse => simp only [perform, h, Context.parse, parsing_eq, hs, hp]; rfl
  | check =>
    obtain ⟨app, hh⟩ := hh (by simp [h])
    simp only [perform, h, Context.check, hosting_eq, hh, parsing_eq, hs, hp]; rfl
  | run =>
    obtain ⟨app, hh⟩ := hh (by simp [h])
    obtain ⟨hresult, -⟩ :=
      App.result_parseAndRun_malformed hp app c.surroundings.store.disk .initial
    simp only [perform, h, run_eq, hh, hs, exit_conclude, running, hresult]; rfl
  | commands => exact absurd h hsub

theorem exit_of_issues {source : String}
    (hsub : c.request.subcommand = .check ∨ c.request.subcommand = .run) (hh : c.host.2 = .ok app)
    (hs : c.source = .ok source) (hp : Script.parse source = .ok ss)
    (hc : Run.check app.registry ss ≠ []) : (c.perform .initial).exit = .ok 1 := by
  rcases hsub with h | h
  · simp only [perform, h, Context.check, hosting_eq, hh, parsing_eq, hs, hp]; rfl
  · obtain ⟨hresult, -⟩ := App.parseAndRun_of_issues hp hc c.surroundings.store.disk .initial
    simp only [perform, h, run_eq, hh, hs, exit_conclude, running, hresult]; rfl

theorem exit_of_starts (h : c.Starts app ss) : (c.perform .initial).exit =
    match (Run.execute (c.setup app) ss .empty .initial).result with
    | .error e => exitOf (.run e)
    | .ok summary =>
      match (app.timings summary).2 with
      | none => .ok 0
      | some f => .error (.duration f) := by
  obtain ⟨source, hs, hp⟩ := h.accepts
  simp only [perform, h.asked, run_eq, h.host, hs, exit_conclude, running,
    App.result_parseAndRun hp (Run.check_eq_nil_iff.2 h.valid), App.execute, setup]
  cases (Run.execute (app.setup c.surroundings.store.disk) ss .empty .initial).result with
  | error e => rfl
  | ok summary =>
    cases hf : (app.timings summary).2 with
    | none => simp only [hf]
    | some f => simp only [hf, exitOf]

/-! ## What happens and how it ends -/

theorem exit_of_hostless (h : c.Hostless) : (c.perform .initial).exit = .ok 2 := by
  obtain ⟨hsub, fault, hh, hf⟩ := h
  rw [exit_of_host_error hsub hh, hf]

theorem exit_of_escapes {f : Failure} (h : c.Escapes f) : (c.perform .initial).exit = .error f := by
  cases h with
  | crashed hsub hh hf => rw [exit_of_host_error hsub hh, hf]
  | unreadable hsub hh hs => exact exit_of_source_error hsub hh hs
  | unreachable hstarts hc ha =>
    rw [exit_of_starts hstarts,
      hc.execute_next (Run.Ending.error?_eq_directory_iff.2 ha)]
    rfl
  | aborted hstarts hc ha =>
    rw [exit_of_starts hstarts,
      hc.execute_next (Run.Ending.error?_eq_aborted_iff.2 ⟨_, _, ha⟩)]
    rfl
  | untold hstarts hrun hf =>
    rw [exit_of_starts hstarts, hrun]
    simp only [hf]

theorem exit_of_succeeds (h : c.Succeeds) (hn : ∀ f, ¬ c.Escapes f) :
    (c.perform .initial).exit = .ok 0 := by
  cases h with
  | parse hsub ha =>
    obtain ⟨source, hs, hp⟩ := ha
    simp only [perform, hsub, Context.parse, parsing_eq, hs, hp]
    rfl
  | check hsub hh ha hv =>
    obtain ⟨source, hs, hp⟩ := ha
    simp only [perform, hsub, Context.check, hosting_eq, hh, parsing_eq, hs, hp,
      Run.check_eq_nil_iff.2 hv]
    rfl
  | @run app ss _ _ _ hstarts hc =>
    obtain ⟨summary, hrun, -⟩ := hc.execute
    rw [exit_of_starts hstarts, hrun]
    cases hf : (app.timings summary).2 with
    | none => simp only [hf]
    | some f => exact absurd (.untold hstarts hrun hf) (hn _)
  | commands hsub hh =>
    simp only [perform, hsub, Context.commands, hosting_eq, hh]
    rfl

/-- A run that starts succeeds, escapes or has the exit code 1. -/
theorem exit_cases_of_starts (h : c.Starts app ss) :
    ((c.perform .initial).exit = .ok 0 ∧ c.Succeeds) ∨ (c.perform .initial).exit = .ok 1 ∨
      ∃ f, (c.perform .initial).exit = .error f ∧ c.Escapes f := by
  rw [exit_of_starts h]
  cases hr : (Run.execute (c.setup app) ss .empty .initial).result with
  | ok summary =>
    cases hf : (app.timings summary).2 with
    | some f => exact .inr (.inr ⟨_, by simp only [hf], .untold h hr hf⟩)
    | none =>
      obtain ⟨calls, hc⟩ := Run.completes_of_execute hr
      exact .inl ⟨by simp only [hf], .run h hc⟩
  | error e =>
    obtain ⟨before, s, after, calls, b, w, rfl, hc, he⟩ := Run.execute_eq_error_iff.1 hr
    cases e with
    | directory fault =>
      exact .inr (.inr ⟨_, rfl, .unreachable h hc (Run.Ending.error?_eq_directory_iff.1 he)⟩)
    | aborted message =>
      obtain ⟨args, w', ha⟩ := Run.Ending.error?_eq_aborted_iff.1 he
      exact .inr (.inr ⟨_, rfl, .aborted h hc ha⟩)
    | _ => exact .inr (.inl rfl)

theorem exit_cases_of_accepts {source : String} (hsub : c.request.subcommand ≠ .commands)
    (hh : c.request.subcommand ≠ .parse → ∃ app, c.host.2 = .ok app) (hs : c.source = .ok source)
    (hp : Script.parse source = .ok ss) :
    ((c.perform .initial).exit = .ok 0 ∧ c.Succeeds) ∨ (c.perform .initial).exit = .ok 1 ∨
      ∃ f, (c.perform .initial).exit = .error f ∧ c.Escapes f := by
  cases h : c.request.subcommand with
  | parse =>
    refine .inl ⟨?_, .parse h ⟨source, hs, hp⟩⟩
    simp only [perform, h, Context.parse, parsing_eq, hs, hp]
    rfl
  | check =>
    obtain ⟨app, hh⟩ := hh (by simp [h])
    by_cases hc : Run.check app.registry ss = []
    · refine .inl ⟨?_, .check h hh ⟨source, hs, hp⟩ (Run.check_eq_nil_iff.1 hc)⟩
      simp only [perform, h, Context.check, hosting_eq, hh, parsing_eq, hs, hp, hc]
      rfl
    · exact .inr (.inl (exit_of_issues (.inl h) hh hs hp hc))
  | run =>
    obtain ⟨app, hh⟩ := hh (by simp [h])
    by_cases hc : Run.check app.registry ss = []
    · exact exit_cases_of_starts ⟨h, hh, ⟨source, hs, hp⟩, Run.check_eq_nil_iff.1 hc⟩
    · exact .inr (.inl (exit_of_issues (.inr h) hh hs hp hc))
  | commands => exact absurd h hsub

/-- Once it has its host, a request succeeds, escapes or has the exit code 1. -/
theorem exit_cases_of_host (hh : c.request.subcommand ≠ .parse → ∃ app, c.host.2 = .ok app) :
    ((c.perform .initial).exit = .ok 0 ∧ c.Succeeds) ∨ (c.perform .initial).exit = .ok 1 ∨
      ∃ f, (c.perform .initial).exit = .error f ∧ c.Escapes f := by
  by_cases hcommands : c.request.subcommand = .commands
  · obtain ⟨app, hh⟩ := hh (by simp [hcommands])
    refine .inl ⟨?_, .commands hcommands hh⟩
    simp only [perform, hcommands, Context.commands, hosting_eq, hh]
    rfl
  cases hs : c.source with
  | error f =>
    exact .inr (.inr ⟨f, exit_of_source_error hcommands hh hs, .unreadable hcommands hh hs⟩)
  | ok source =>
    cases hp : Script.parse source with
    | error e => exact .inr (.inl (exit_of_malformed hcommands hh hs hp))
    | ok ss => exact exit_cases_of_accepts hcommands hh hs hp

/-- Nothing else happens. -/
theorem perform_cases (c : Context) :
    ((c.perform .initial).exit = .ok 2 ∧ c.Hostless) ∨
      ((c.perform .initial).exit = .ok 0 ∧ c.Succeeds) ∨ (c.perform .initial).exit = .ok 1 ∨
      ∃ f, (c.perform .initial).exit = .error f ∧ c.Escapes f := by
  by_cases hsub : c.request.subcommand = .parse
  · exact .inr (exit_cases_of_host fun h => absurd hsub h)
  cases hh : c.host.2 with
  | ok app => exact .inr (exit_cases_of_host fun _ => ⟨app, hh⟩)
  | error fault =>
    rw [exit_of_host_error hsub hh]
    cases hf : fault.unexpected? with
    | none => exact .inl ⟨rfl, hsub, fault, hh, hf⟩
    | some crash => exact .inr (.inr (.inr ⟨_, rfl, .crashed hsub hh hf⟩))

end Context

/-- **Exit codes.**  With settings that load, arguments that are understood end the program with the
code 2 exactly if it has no host, with 0 exactly if all that is asked for is done, and with 1 in every
other case, but for what escapes: a crash of the host's module that a load is not prepared for, a
source that cannot be read, a working directory that cannot be entered, an action that aborts the run,
and a time without words. -/
theorem exit_codes {s : Surroundings} {arguments : List String} {r : Request} {c : Context}
    (hr : readRequest arguments = .ok r) (hc : contextOf s r = .ok c) :
    ∃ result, program s arguments = .ok result ∧
      (result.exit = .ok 2 ↔ c.Hostless) ∧
      (result.exit = .ok 0 ↔ c.Succeeds ∧ ∀ f, ¬ c.Escapes f) ∧
      (result.exit = .ok 1 ↔ ¬ c.Hostless ∧ ¬ c.Succeeds ∧ ∀ f, ¬ c.Escapes f) ∧
      ∀ f, result.exit = .error f ↔ c.Escapes f := by
  have hprogram : program s arguments = .ok (c.perform .initial) := by
    rw [program, hr, Except.map, answer_eq, hc]
  have htwo : c.Hostless → (c.perform .initial).exit = .ok 2 := Context.exit_of_hostless
  have hfail (f : Failure) : c.Escapes f → (c.perform .initial).exit = .error f :=
    Context.exit_of_escapes
  have hnone {code : Nat} (he : (c.perform .initial).exit = .ok code) (f : Failure) :
      ¬ c.Escapes f := by
    intro h
    rw [hfail f h] at he
    cases he
  have hzero (h : c.Succeeds) {code : Nat} (he : (c.perform .initial).exit = .ok code) :
      code = 0 := by
    rw [Context.exit_of_succeeds h (hnone he)] at he
    exact (Except.ok.inj he).symm
  refine ⟨_, hprogram, ⟨fun he => ?_, htwo⟩,
    ⟨fun he => ⟨?_, hnone he⟩, fun h => Context.exit_of_succeeds h.1 h.2⟩,
    ⟨fun he => ⟨fun h => ?_, fun h => absurd (hzero h he) (by decide), hnone he⟩, fun h => ?_⟩,
    fun f => ⟨fun he => ?_, hfail f⟩⟩
  · simpa [he] using c.perform_cases
  · simpa [he] using c.perform_cases
  · rw [htwo h] at he
    cases he
  · obtain ⟨hhost, hsucceeds, hescapes⟩ := h
    simpa [hhost, hsucceeds, hescapes] using c.perform_cases
  · simpa [he] using c.perform_cases

theorem exit_codes_parsed : ∃ r c result, readRequest ["parse", "-c", "(ping)"] = .ok r ∧
    contextOf desk r = .ok c ∧ program desk ["parse", "-c", "(ping)"] = .ok result ∧
    result.exit = .ok 0 := by
  let r : Request := ⟨.parse, none, some "(ping)", none⟩
  have hr : readRequest ["parse", "-c", "(ping)"] = .ok r := by decide +kernel
  obtain ⟨c, hc, hs⟩ : ∃ c, contextOf desk r = .ok c ∧ c.source = .ok "(ping)" := ⟨_, rfl, rfl⟩
  have hsub : c.request.subcommand = .parse := by rw [request_of_contextOf hc]
  have hp : Script.parse "(ping)" = .ok [⟨none, "ping", [], .empty⟩] := by decide +kernel
  have hnone (f : Failure) : ¬ c.Escapes f := by
    intro h
    cases h with
    | crashed h => exact h hsub
    | unreadable _ _ h => rw [hs] at h; cases h
    | unreachable h | aborted h | untold h =>
      have hrun := h.asked
      rw [hsub] at hrun
      cases hrun
  obtain ⟨result, hprogram, -, hzero, -⟩ := exit_codes hr hc
  exact ⟨r, c, result, hr, hc, hprogram, hzero.2 ⟨.parse hsub ⟨_, hs, hp⟩, hnone⟩⟩

/-- A source file that does not exist leaves the program without an exit code, although the arguments
are understood and the settings load. -/
theorem exit_codes_missing : ∃ r c result, readRequest ["parse", "-f", "no"] = .ok r ∧
    contextOf desk r = .ok c ∧ program desk ["parse", "-f", "no"] = .ok result ∧
    result.exit = .error (.source (.missing "no")) ∧ ∀ code, result.exit ≠ .ok code := by
  let r : Request := ⟨.parse, some "no", none, none⟩
  have hr : readRequest ["parse", "-f", "no"] = .ok r := by decide +kernel
  obtain ⟨c, hc, -⟩ := contextOf_desk r
  obtain ⟨result, hresult, he⟩ : ∃ result, answer desk r = result ∧
      result.exit = .error (.source (.missing "no")) := ⟨_, rfl, rfl⟩
  have hprogram : program desk ["parse", "-f", "no"] = .ok result := by
    rw [program, hr, ← hresult]
    rfl
  exact ⟨r, c, result, hr, hc, hprogram, he, fun code h => by rw [he] at h; cases h⟩

end Cli

end Runbook
