/-
  What a check tells about a run.

  `check` and `run` read the same arguments, find the same host and read the same
  source; then one scans the statements and the other hands the source over to the
  application, which scans them again.

  * `readRequest_check`: the arguments of both are read alike;
  * `Context.foretells`: what the exit code of a check says about the run in the same
    context;
  * `check_foretells_run`: **a check foretells how a run with the same arguments ends**,
    whatever the actions of the host do.
-/
import Runbook.Proofs.Cli.Phases

namespace Runbook.Cli

open Run (Issue callsOf)

/-! ## Arguments -/

/-- The same request to another subcommand. -/
def Request.asking (r : Request) (sub : Subcommand) : Request := { r with subcommand := sub }

theorem Request.asking_set (r : Request) (sub : Subcommand) (o : Switch) (v : String) :
    (r.asking sub).set o v = (r.set o v).asking sub := by
  cases o <;> rfl

theorem readOptions_asking {spellings : List (String × Switch)} {refused : Bool} (sub : Subcommand)
    (r : Request) (arguments : List String) :
    readOptions spellings refused (r.asking sub) arguments =
      (readOptions spellings refused r arguments).map (·.asking sub) := by
  fun_induction readOptions spellings refused r arguments <;>
    simp_all [readOptions, Request.asking_set, Except.map]

/-- After its name, a subcommand reads its arguments. -/
theorem readRequest_cons {name : String} {sub : Subcommand}
    (hvalue : shapeOf helpSpellings name = .value) (hname : Subcommand.ofName? name = some sub)
    (arguments : List String) :
    readRequest (name :: arguments) = readSubcommand false sub arguments := by
  simp only [readRequest, readArguments, hvalue, hname]

theorem readRequest_run (arguments : List String) :
    readRequest ("run" :: arguments) = readSubcommand false .run arguments :=
  readRequest_cons (by decide +kernel) rfl arguments

theorem subcommand_of_readSubcommand {refused : Bool} {sub : Subcommand} {arguments : List String}
    {r : Request} (h : readSubcommand refused sub arguments = .ok r) : r.subcommand = sub := by
  unfold readSubcommand at h
  split at h
  · cases h
  · -- A request to `sub` stays the same when it asks for `sub`.
    have hr : (.ok r : Except Refusal Request) = (Except.ok r).map (·.asking sub) := by
      rw [← h, ← readOptions_asking sub ⟨sub, none, none, none⟩]
      rfl
    exact congrArg Request.subcommand (Except.ok.inj hr)

/-- `check` and `run` have the same options. -/
theorem readRequest_check (arguments : List String) :
    readRequest ("check" :: arguments) =
      (readRequest ("run" :: arguments)).map (·.asking .check) := by
  have hspellings : Subcommand.check.spellings = Subcommand.run.spellings := rfl
  have hcheck : readRequest ("check" :: arguments) = readSubcommand false .check arguments :=
    readRequest_cons (by decide +kernel) rfl arguments
  simp only [hcheck, readRequest_run, readSubcommand, hspellings]
  split
  · rfl
  · exact readOptions_asking .check ⟨.run, none, none, none⟩ arguments

/-- The same context with the request to another subcommand. -/
def Context.asking (c : Context) (sub : Subcommand) : Context :=
  { c with request := c.request.asking sub }

theorem contextOf_asking (s : Surroundings) (r : Request) (sub : Subcommand) :
    contextOf s (r.asking sub) = (contextOf s r).map (·.asking sub) := by
  unfold contextOf
  obtain ⟨l, store, e | settings⟩ := (Settings.Loader.ofFiles s.store []).load s.store <;> rfl

/-! ## What is written -/

theorem lines_append (log : Log.State) (timestamp : String) (rs rs' : List Log.Record) :
    log.lines timestamp (rs ++ rs') = log.lines timestamp rs ++ log.lines timestamp rs' := by
  simp [Log.State.lines]

/-- The lines that tell issues. -/
def issueLines (issues : List Issue) : String :=
  String.join (issues.map fun i => "- " ++ i.message ++ "\n")

theorem errors_complaints (issues : List Issue) (o : Output) :
    (issues.foldl (fun o i => o.complain ("- " ++ i.message)) o).errors =
      o.errors ++ issueLines issues := by
  induction issues generalizing o with
  | nil => simp [issueLines]
  | cons i issues ih =>
    rw [List.foldl_cons, ih]
    simp [issueLines, Output.complain, String.append_assoc]

theorem world_complaints (issues : List Issue) (o : Output) :
    (issues.foldl (fun o i => o.complain ("- " ++ i.message)) o).world = o.world := by
  induction issues generalizing o with
  | nil => rfl
  | cons i issues ih => rw [List.foldl_cons, ih]; rfl

namespace Context

variable {c : Context} {o : Output} {text : String}

/-- Besides lines of the log, an output has a text on its error stream. -/
def Shows (c : Context) (o : Output) (text : String) : Prop :=
  ∃ records, o.errors = c.log.lines c.surroundings.timestamp records ++ text

theorem shows_hosted (c : Context) : c.Shows (c.hosted .initial) "" :=
  ⟨c.host.1, by simp [hosted, logged, Output.log, Output.initial]⟩

theorem Shows.logged (h : c.Shows o "") (records : List Log.Record) :
    c.Shows (c.logged o records) "" := by
  obtain ⟨before, h⟩ := h
  exact ⟨before ++ records, by simp [Context.logged, Output.log, h, lines_append]⟩

theorem Shows.complain (h : c.Shows o "") (line : String) :
    c.Shows (o.complain line) (line ++ "\n") := by
  obtain ⟨records, h⟩ := h
  exact ⟨records, by simp [Output.complain, h, String.append_assoc]⟩

theorem Shows.complaints (h : c.Shows o "") (issues : List Issue) :
    c.Shows (issues.foldl (fun o i => o.complain ("- " ++ i.message)) o) (issueLines issues) := by
  obtain ⟨records, h⟩ := h
  exact ⟨records, by simp [errors_complaints, h]⟩

/-- The lines with which a source is refused before anything of it runs. -/
inductive Refuses (c : Context) : String → Prop
  | malformed {source : String} {e : Source.SyntaxError} : c.source = .ok source →
      Script.parse source = .error e → Refuses c ("Syntax error: " ++ e.message ++ "\n")
  | invalid {app : App} {ss : List Script.Statement} : c.host.2 = .ok app → c.Accepts ss →
      Run.check app.registry ss ≠ [] → Refuses c (issueLines (Run.check app.registry ss))

/-- An application runs the source, which ends the program. -/
def Runs (c : Context) (app : App) (source : String) (ran : Result) : Prop :=
  c.host.2 = .ok app ∧ c.source = .ok source ∧
    ran = c.conclude (c.hosted .initial) (c.running app source)

/-- What the end of a check says about that of a run. -/
structure Foretells (c : Context) (checked ran : Result) : Prop where
  /-- Both have no host in the same cases. -/
  hostless : checked.exit = .ok 2 ↔ ran.exit = .ok 2
  /-- A source that the check refuses is refused with the same lines, and nothing is called. -/
  refused : checked.exit = .ok 1 → ran.exit = .ok 1 ∧ ran.output.world = checked.output.world ∧
    (∃ app source, c.Runs app source ran ∧ callsOf (c.running app source).events = []) ∧
    ∃ lines, c.Refuses lines ∧ c.Shows checked.output lines ∧ c.Shows ran.output lines
  /-- A source that the check accepts is run, and neither malformed nor invalid. -/
  accepted : checked.exit = .ok 0 → ∃ app source, c.Runs app source ran ∧
    (∀ e, (c.running app source).result ≠ .error (.malformed e)) ∧
    ∀ issues, (c.running app source).result ≠ .error (.run (.invalid issues))
  /-- What ends the check otherwise also ends the run. -/
  failing : ∀ f, checked.exit = .error f → ran = checked

/-- A check and a run that end alike, before there are statements. -/
theorem foretells_refl {result : Result} (h : result.exit = .ok 2 ∨ ∃ f, result.exit = .error f) :
    c.Foretells result result where
  hostless := Iff.rfl
  refused h' := by rcases h with h | ⟨f, h⟩ <;> simp [h] at h'
  accepted h' := by rcases h with h | ⟨f, h⟩ <;> simp [h] at h'
  failing _ _ := rfl

variable {app : App} {source : String}

/-- A check and a run that refuse the source with the same lines. -/
theorem foretells_refused {o' : Output} (hr : c.Runs app source (o'.exit 1))
    (hcalls : callsOf (c.running app source).events = []) (hworld : o'.world = o.world)
    (ht : c.Refuses text) (ho : c.Shows o text) (ho' : c.Shows o' text) :
    c.Foretells (o.exit 1) (o'.exit 1) where
  hostless := by simp [Output.exit]
  refused _ := ⟨rfl, hworld, ⟨app, source, hr, hcalls⟩, text, ht, ho, ho'⟩
  accepted h := by simp [Output.exit] at h
  failing f h := by simp [Output.exit] at h

/-- The output once a run is over. -/
def after (c : Context) (app : App) (source : String) : Output :=
  let running := c.running app source
  c.logged { c.hosted .initial with world := running.world } (Run.recordsOf running.events)

theorem shows_after : c.Shows (c.after app source) "" := by
  have h : c.Shows { c.hosted .initial with world := (c.running app source).world } "" :=
    c.shows_hosted
  exact h.logged _

theorem foretells_malformed {e : Source.SyntaxError} (hh : c.host.2 = .ok app)
    (hs : c.source = .ok source) (hp : Script.parse source = .error e) :
    c.Foretells (c.check .initial) (c.run .initial) := by
  obtain ⟨hresult, hcalls, hworld⟩ :=
    App.result_parseAndRun_malformed hp app c.surroundings.store.disk .initial
  have hcheck : c.check .initial =
      ((c.hosted .initial).complain ("Syntax error: " ++ e.message)).exit 1 := by
    simp only [check, hosting_eq, hh, parsing_eq, hs, hp]
  have hconclude : c.conclude (c.hosted .initial) (c.running app source) =
      ((c.after app source).complain ("Syntax error: " ++ e.message)).exit 1 := by
    simp only [conclude, running, hresult]
    rfl
  have hrun : c.run .initial = c.conclude (c.hosted .initial) (c.running app source) := by
    simp only [run_eq, hh, hs]
  rw [hcheck, hrun, hconclude]
  exact foretells_refused ⟨hh, hs, hconclude.symm⟩ hcalls hworld (.malformed hs hp)
    (c.shows_hosted.complain _) (shows_after.complain _)

theorem foretells_invalid {ss : List Script.Statement} (hh : c.host.2 = .ok app)
    (hs : c.source = .ok source) (hp : Script.parse source = .ok ss)
    (hc : Run.check app.registry ss ≠ []) :
    c.Foretells (c.check .initial) (c.run .initial) := by
  obtain ⟨hresult, hcalls, hworld⟩ :=
    App.parseAndRun_of_issues hp hc c.surroundings.store.disk .initial
  have hcheck : c.check .initial = ((Run.check app.registry ss).foldl
      (fun o i => o.complain ("- " ++ i.message))
      (c.logged (c.hosted .initial) (Script.notices source))).exit 1 := by
    simp only [check, hosting_eq, hh, parsing_eq, hs, hp]
  have hconclude : c.conclude (c.hosted .initial) (c.running app source) =
      ((Run.check app.registry ss).foldl (fun o i => o.complain ("- " ++ i.message))
        (c.after app source)).exit 1 := by
    simp only [conclude, running, hresult]
    rfl
  have hrun : c.run .initial = c.conclude (c.hosted .initial) (c.running app source) := by
    simp only [run_eq, hh, hs]
  rw [hcheck, hrun, hconclude]
  refine foretells_refused ⟨hh, hs, hconclude.symm⟩ hcalls ?_ (.invalid hh ⟨source, hs, hp⟩ hc)
    ((c.shows_hosted.logged _).complaints _) (shows_after.complaints _)
  rw [world_complaints, world_complaints]
  exact hworld

/-- Statements that a check finds nothing wrong with.  No action can make their run say otherwise. -/
theorem foretells_accepted {ss : List Script.Statement} (hh : c.host.2 = .ok app)
    (hs : c.source = .ok source) (hp : Script.parse source = .ok ss)
    (hc : Run.check app.registry ss = []) :
    c.Foretells (c.check .initial) (c.run .initial) := by
  have hcheck : (c.check .initial).exit = .ok 0 := by
    simp only [check, hosting_eq, hh, parsing_eq, hs, hp, hc]
    rfl
  have hrun : c.run .initial = c.conclude (c.hosted .initial) (c.running app source) := by
    simp only [run_eq, hh, hs]
  have hexit : (c.run .initial).exit ≠ .ok 2 := by
    rw [hrun, exit_conclude]
    rcases (c.running app source).result with e | bindings
    · rcases e with e | e | f
      · simp [exitOf]
      · cases e <;> simp [exitOf]
      · simp [exitOf]
    · simp
  obtain ⟨hmalformed, hinvalid⟩ :=
    App.result_parseAndRun_ne hp hc c.surroundings.store.disk .initial
  refine ⟨?_, fun h => ?_, fun _ => ⟨app, source, ⟨hh, hs, hrun⟩, hmalformed, hinvalid⟩,
    fun f h => ?_⟩
  · exact iff_of_false (by simp [hcheck]) hexit
  · simp [hcheck] at h
  · simp [hcheck] at h

/-- **What a check says about a run in the same context.** -/
theorem foretells (c : Context) : c.Foretells (c.check .initial) (c.run .initial) := by
  cases hh : c.host.2 with
  | error fault =>
    have hsame : c.run .initial = c.check .initial := by
      simp only [run_eq, check, hosting_eq, hh]
    rw [hsame]
    refine foretells_refl ?_
    simp only [check, hosting_eq, hh]
    cases fault.unexpected? with
    | some crash => exact .inr ⟨_, rfl⟩
    | none => exact .inl rfl
  | ok app =>
    cases hs : c.source with
    | error f =>
      have hsame : c.run .initial = c.check .initial := by
        simp only [run_eq, check, hosting_eq, hh, parsing_eq, hs]
      rw [hsame]
      refine foretells_refl (.inr ⟨f, ?_⟩)
      simp only [check, hosting_eq, hh, parsing_eq, hs]
      rfl
    | ok source =>
      cases hp : Script.parse source with
      | error e => exact foretells_malformed hh hs hp
      | ok ss =>
        by_cases hc : Run.check app.registry ss = []
        · exact foretells_accepted hh hs hp hc
        · exact foretells_invalid hh hs hp hc

end Context

/-- **A check foretells the run.**  The same arguments are refused or accepted after `check` and after
`run`.  If they are accepted, the host is missing for both or for none; a source that the check
refuses is refused by the run in the same words before anything is called; a source that the check
accepts is neither malformed nor invalid when it runs, whatever the actions of the host do; and what
ends the check in any other way ends the run in that way. -/
theorem check_foretells_run (s : Surroundings) (arguments : List String) :
    (∃ refusal, program s ("check" :: arguments) = .error refusal ∧
      program s ("run" :: arguments) = .error refusal) ∨
    ∃ r checked ran, readRequest ("run" :: arguments) = .ok r ∧
      program s ("check" :: arguments) = .ok checked ∧ program s ("run" :: arguments) = .ok ran ∧
      (∀ c, contextOf s r = .ok c → c.Foretells checked ran) ∧
      ∀ e, contextOf s r = .error e → ran = checked ∧ checked.exit = .error (.settings e) := by
  unfold program
  rw [readRequest_check]
  cases hr : readRequest ("run" :: arguments) with
  | error refusal => exact .inl ⟨refusal, rfl, rfl⟩
  | ok r =>
    refine .inr ⟨r, _, _, rfl, rfl, rfl, fun c hc => ?_, fun e he => ?_⟩
    · have hsub : c.request.subcommand = .run := by
        rw [request_of_contextOf hc, subcommand_of_readSubcommand (readRequest_run _ ▸ hr)]
      rw [answer_eq, answer_eq, contextOf_asking, hc]
      simp only [Except.map, Context.perform, Context.asking, Request.asking, hsub]
      exact c.foretells
    · rw [answer_eq, answer_eq, contextOf_asking, he]
      exact ⟨rfl, rfl⟩

/-- A check finds an unknown command and a missing assignment, and so does the run. -/
theorem check_foretells_run_invalid : ∃ checked ran,
    program desk ["check", "--app", "m:a", "-c", "(nope) (get)"] = .ok checked ∧
    program desk ["run", "--app", "m:a", "-c", "(nope) (get)"] = .ok ran ∧
    checked.exit = .ok 1 ∧ ran.exit = .ok 1 ∧ ran.output.world = checked.output.world := by
  let r : Request := ⟨.run, none, some "(nope) (get)", some "m:a"⟩
  have hr : readRequest ["run", "--app", "m:a", "-c", "(nope) (get)"] = .ok r := by decide +kernel
  obtain ⟨c, hc, hhost⟩ := contextOf_desk r
  have hh : c.host.2 = .ok App.twoCommands := by rw [hhost rfl]
  have hp : Script.parse "(nope) (get)" =
      .ok [⟨none, "nope", [], .empty⟩, ⟨none, "get", [], .empty⟩] := by decide +kernel
  have hsource : c.source = .ok "(nope) (get)" := by
    rw [Context.source, request_of_contextOf hc]; rfl
  have hcheck : (c.check .initial).exit = .ok 1 := by
    simp only [Context.check, Context.hosting_eq, hh, Context.parsing_eq, hsource, hp]
    rfl
  have hprogram : program desk ["check", "--app", "m:a", "-c", "(nope) (get)"] =
      .ok (c.check .initial) := by
    rw [program, readRequest_check, hr, Except.map, Except.map, answer_eq, contextOf_asking, hc]
    rfl
  obtain ⟨refusal, -, hrefused⟩ | ⟨r', checked, ran, hr', hchecked, hran, hforetells, -⟩ :=
    check_foretells_run desk ["--app", "m:a", "-c", "(nope) (get)"]
  · rw [program, hr] at hrefused
    cases hrefused
  · obtain rfl : r = r' := Except.ok.inj (hr.symm.trans hr')
    obtain rfl : c.check .initial = checked := Except.ok.inj (hprogram.symm.trans hchecked)
    obtain ⟨hexit, hworld, -⟩ := (hforetells c hc).refused hcheck
    exact ⟨_, ran, hchecked, hran, hcheck, hexit, hworld⟩
end Runbook.Cli
