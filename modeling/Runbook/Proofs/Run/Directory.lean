/-
  The directories in which the actions of a run start, and the one in which it ends.

  The `invocations` of a run are its calls with what each action is given and what
  it replies.  They make a `Walk` through the directories: an action starts where
  the working directory leads from the directory of that moment, and what is
  current after it depends on the one that it leaves.

  * `Walk.scoped` and `Walk.chained`: the walks with a working directory, and those
    without one;
  * `walk_runFrom`: a run is such a walk, however it ends;
  * `execute_directory`: **with a working directory every action starts in it and
    the run ends where it began; without one every action starts where the one
    before it ended, and so does what follows the run.**
-/
import Runbook.Host.Stock
import Runbook.Proofs.Run.Attribution

namespace Runbook.Run

open Script (Statement)

/-! ## Invocations -/

/-- A call of an action: what it is given, and what it replies. -/
structure Invocation where
  command : String
  arguments : Arguments
  host : Host
  reply : Reply

namespace Invocation

/-- The directory in which an action starts. -/
def start (i : Invocation) : Place := i.host.directory

/-- The directory that an action leaves. -/
def left (i : Invocation) : Place := i.reply.host.directory

/-- The world after an invocation. -/
def world (setup : Setup) (w : World) (i : Invocation) : World :=
  ⟨w.clock + i.reply.took,
    { i.reply.host with directory := setup.finish w.host.directory i.left }⟩

end Invocation

/-- The invocation that a statement makes, if it gets that far. -/
def invocation? (setup : Setup) (s : Statement) (b : Bindings) (w : World) : Option Invocation :=
  match setup.registry.find? s.command.name, s.command.resolve b, setup.start w.host.directory with
  | some d, .ok args, .ok start =>
    let host := { w.host with directory := start }
    some ⟨s.command.name, args, host, d.action setup.disk args host⟩
  | _, _, _ => none

/-- The invocations of statements that run one after another, up to the first that fails. -/
def invocations (setup : Setup) : List Statement → Bindings → World → List Invocation
  | [], _, _ => []
  | s :: ss, b, w =>
    match invocation? setup s b w with
    | none => []
    | some i =>
      match i.reply.outcome with
      | .returned v => i :: invocations setup ss (assign b s.target v) (i.world setup w)
      | _ => [i]

section
variable {setup : Setup} {s : Statement} {b : Bindings} {w : World}

theorem invocation?_eq_some_iff {i : Invocation} : invocation? setup s b w = some i ↔
    ∃ d args start, setup.registry.find? s.command.name = some d ∧
      s.command.resolve b = .ok args ∧ setup.start w.host.directory = .ok start ∧
      i = ⟨s.command.name, args, { w.host with directory := start },
        d.action setup.disk args { w.host with directory := start }⟩ := by
  unfold invocation?
  constructor
  · intro h
    split at h
    · next d args start hd ha hs =>
      cases h
      exact ⟨d, args, start, hd, ha, hs, rfl⟩
    · cases h
  · rintro ⟨d, args, start, hd, ha, hs, rfl⟩
    simp only [hd, ha, hs]

/-- An attempt with an invocation ends as its action replies. -/
theorem attempt_of_invocation {i : Invocation} (h : invocation? setup s b w = some i) :
    attempt setup s b w = .called i.arguments i.reply.outcome (i.world setup w) := by
  obtain ⟨d, args, start, hd, ha, hs, rfl⟩ := invocation?_eq_some_iff.1 h
  exact attempt_called.2 ⟨d, start, hd, ha, hs, rfl⟩

/-- A call of an attempt is its invocation. -/
theorem invocation_of_attempt {args : Arguments} {o : Outcome} {w' : World}
    (h : attempt setup s b w = .called args o w') : ∃ i, invocation? setup s b w = some i ∧
      i.arguments = args ∧ i.reply.outcome = o ∧ i.world setup w = w' := by
  obtain ⟨d, start, hd, hargs, hs, hcall⟩ := attempt_called.1 h
  obtain ⟨ho, hw⟩ := Prod.mk.inj hcall
  exact ⟨_, invocation?_eq_some_iff.2 ⟨d, args, start, hd, hargs, hs, rfl⟩, rfl, ho, hw⟩

theorem command_of_invocation {i : Invocation} (h : invocation? setup s b w = some i) :
    i.command = s.command.name := by
  obtain ⟨d, args, start, -, -, -, rfl⟩ := invocation?_eq_some_iff.1 h
  rfl

theorem invocations_cons {i : Invocation} {v : Value} {ss : List Statement}
    (hi : invocation? setup s b w = some i) (ho : i.reply.outcome = .returned v) :
    invocations setup (s :: ss) b w =
      i :: invocations setup ss (assign b s.target v) (i.world setup w) := by
  simp only [invocations, hi, ho]

/-- An attempt without an invocation calls nothing. -/
theorem attempt_of_no_invocation (h : invocation? setup s b w = none) :
    callsOf ((attempt setup s b w).events setup.logger s) = [] ∧
      (attempt setup s b w).world w = w ∧
      ∀ index command, (attempt setup s b w).error? index command ≠ none := by
  cases ha : attempt setup s b w with
  | called args o w' =>
    obtain ⟨d, start, hd, hargs, hs, -⟩ := attempt_called.1 ha
    simp [invocation?, hd, hargs, hs] at h
  | _ => simp [callsOf]

/-- Every invocation is one of the action that is registered under its command. -/
theorem reply_of_mem_invocations {i : Invocation} : ∀ {ss : List Statement} {b : Bindings}
    {w : World}, i ∈ invocations setup ss b w → ∃ d,
      setup.registry.find? i.command = some d ∧ i.reply = d.action setup.disk i.arguments i.host
  | [], _, _, h => by cases h
  | s :: ss, b, w, h => by
    rw [invocations] at h
    cases hj : invocation? setup s b w with
    | none => rw [hj] at h; cases h
    | some j =>
      have hfirst : ∃ d, setup.registry.find? j.command = some d ∧
          j.reply = d.action setup.disk j.arguments j.host := by
        obtain ⟨d, args, start, hd, -, -, rfl⟩ := invocation?_eq_some_iff.1 hj
        exact ⟨d, hd, rfl⟩
      simp only [hj] at h
      cases ho : j.reply.outcome with
      | returned v =>
        rw [ho] at h
        rcases List.mem_cons.1 h with rfl | h
        · exact hfirst
        · exact reply_of_mem_invocations h
      | _ =>
        rw [ho] at h
        obtain rfl := List.mem_singleton.1 h
        exact hfirst

end

/-! ## Walks -/

/-- From a directory along the directories in which invocations start and which they leave. -/
inductive Walk (setup : Setup) : Place → List Invocation → Place → Prop
  | nil (d : Place) : Walk setup d [] d
  | cons {d d' : Place} {i : Invocation} {is : List Invocation} :
      setup.start d = .ok i.start → Walk setup (setup.finish d i.left) is d' →
      Walk setup d (i :: is) d'

/-- The path of the directory in which every action starts, if there is one; an empty path is
none. -/
def Setup.scope? (setup : Setup) : Option String := setup.workingDir.filter (· ≠ "")

section
variable {setup : Setup} {path : String} {d d' : Place} {is : List Invocation}

theorem start_of_scope (h : setup.scope? = some path) (d : Place) :
    setup.start d = setup.disk.enter d path := by
  obtain ⟨hw, hp⟩ := Option.filter_eq_some_iff.1 h
  simp only [Setup.start, hw, if_neg (of_decide_eq_true hp)]

theorem finish_of_scope (h : setup.scope? = some path) (d left : Place) :
    setup.finish d left = d := by
  obtain ⟨hw, hp⟩ := Option.filter_eq_some_iff.1 h
  simp only [Setup.finish, hw, if_neg (of_decide_eq_true hp)]

theorem workingDir_of_no_scope (h : setup.scope? = none) :
    setup.workingDir = none ∨ setup.workingDir = some "" := by
  unfold Setup.scope? at h
  cases hw : setup.workingDir with
  | none => exact .inl rfl
  | some path =>
    have hp : path = "" := by simpa [hw, Option.filter] using h
    exact .inr (by rw [hp])

theorem start_of_no_scope (h : setup.scope? = none) (d : Place) : setup.start d = .ok d := by
  rcases workingDir_of_no_scope h with hw | hw <;> simp [Setup.start, hw]

theorem finish_of_no_scope (h : setup.scope? = none) (d left : Place) :
    setup.finish d left = left := by
  rcases workingDir_of_no_scope h with hw | hw <;> simp [Setup.finish, hw]

/-- A walk with a working directory returns to where it began after every invocation. -/
theorem Walk.scoped (h : setup.scope? = some path) (hw : Walk setup d is d') :
    (∀ i ∈ is, setup.disk.enter d path = .ok i.start) ∧ d' = d := by
  induction hw with
  | nil => exact ⟨fun _ hi => (List.not_mem_nil hi).elim, rfl⟩
  | @cons d d' i is hs _ ih =>
    rw [finish_of_scope h] at ih
    rw [start_of_scope h] at hs
    refine ⟨fun j hj => ?_, ih.2⟩
    rcases List.mem_cons.1 hj with rfl | hj
    · exact hs
    · exact ih.1 j hj

/-- A walk without one goes on from the directory that the last invocation left. -/
theorem Walk.chained (h : setup.scope? = none) (hw : Walk setup d is d') :
    is.map (·.start) ++ [d'] = d :: is.map (·.left) := by
  induction hw with
  | nil => rfl
  | @cons d d' i is hs _ ih =>
    rw [finish_of_no_scope h] at ih
    rw [start_of_no_scope h] at hs
    cases hs
    rw [List.map_cons, List.map_cons, List.cons_append, ih]

end

/-! ## Runs -/

/-- The calls that a run adds to those before it are its invocations, and they walk from the
directory before the run to that after it. -/
theorem walk_runFrom (setup : Setup) : ∀ (index : Nat) (ss : List Statement) (p : Progress),
    let run := (runFrom setup index ss p).1
    let made := invocations setup ss p.bindings p.world
    callsOf run.events = callsOf p.events ++ made.map (fun i => (i.command, i.arguments)) ∧
      Walk setup p.world.host.directory made run.world.host.directory
  | _, [], p => ⟨by simp [runFrom, invocations], .nil _⟩
  | index, s :: ss, p => by
    rw [runFrom_cons]
    cases hi : invocation? setup s p.bindings p.world with
    | none =>
      obtain ⟨hcalls, hworld, herror⟩ := attempt_of_no_invocation hi
      cases he : (attempt setup s p.bindings p.world).error? index s.command.name with
      | none => exact absurd he (herror _ _)
      | some e =>
        simp only [invocations, hi, Progress.follow, callsOf_append, hcalls, hworld]
        exact ⟨rfl, .nil _⟩
    | some i =>
      have hs : setup.start p.world.host.directory = .ok i.start := by
        obtain ⟨d, args, start, -, -, hs, rfl⟩ := invocation?_eq_some_iff.1 hi
        exact hs
      have hname : i.command = s.command.name := command_of_invocation hi
      rw [attempt_of_invocation hi]
      cases ho : i.reply.outcome with
      | returned v =>
        obtain ⟨hcalls, hwalk⟩ := walk_runFrom setup (index + 1) ss
          (p.follow setup.logger s (.called i.arguments (.returned v) (i.world setup p.world)))
        refine ⟨?_, ?_⟩
        · simp only [invocations, hi, ho, List.map_cons, hname]
          simpa [Progress.follow, callsOf] using hcalls
        · simp only [invocations, hi, ho]
          exact .cons hs hwalk
      | _ =>
        simp only [Ending.error?, invocations, hi, ho, Progress.follow, callsOf_append,
          callsOf_called, List.map_cons, List.map_nil, hname]
        exact ⟨trivial, .cons hs (.nil _)⟩

theorem walk_execute (setup : Setup) (ss : List Statement) (b : Bindings) (w : World) :
    let run := execute setup ss b w
    let made := invocations setup ss b w
    callsOf run.events = made.map (fun i => (i.command, i.arguments)) ∧
      Walk setup w.host.directory made run.world.host.directory := by
  have h := walk_runFrom setup 0 ss ⟨b, .empty, w, []⟩
  unfold execute
  cases hr : runFrom setup 0 ss ⟨b, .empty, w, []⟩ with
  | mk q r =>
    rw [hr] at h
    cases r <;> exact h

/-- **Where actions start and runs end**, whatever the end is.  With a working directory every
action that is called starts in the one that its path leads to from the directory before the run,
and that one is current again after the run.  Without it the first action starts in the directory
before the run, every other in the one that the action before it left, and the last of these is
current after the run. -/
theorem execute_directory (setup : Setup) (ss : List Statement) (b : Bindings) (w : World) :
    let run := execute setup ss b w
    let made := invocations setup ss b w
    callsOf run.events = made.map (fun i => (i.command, i.arguments)) ∧
      match setup.scope? with
      | some path =>
        (∀ i ∈ made, setup.disk.enter w.host.directory path = .ok i.start) ∧
          run.world.host.directory = w.host.directory
      | none => made.map (·.start) ++ [run.world.host.directory] =
          w.host.directory :: made.map (·.left) := by
  obtain ⟨hcalls, hwalk⟩ := walk_execute setup ss b w
  refine ⟨hcalls, ?_⟩
  cases h : setup.scope? with
  | some path => exact hwalk.scoped h
  | none => exact hwalk.chained h

/-- A command that changes the directory, run in `a`. -/
def wandering : Setup :=
  ⟨⟨[("cd", ⟨Stock.Behaviour.enter.action 0 "cd" 0, none, [], none⟩)], by decide⟩,
    .ofPaths ["a/b"] [], some "a", "wandering"⟩

/-- Two statements that go to `b`, which is in `a` only. -/
def intoB : List Statement :=
  [⟨none, "cd", [.literal "b"], .empty⟩, ⟨none, "cd", [.literal "b"], .empty⟩]

theorem execute_directory_wandering :
    (invocations wandering intoB .empty .initial).map (·.start) =
        [Place.root.child "a", Place.root.child "a"] ∧
      (invocations wandering intoB .empty .initial).map (·.left) =
        [(Place.root.child "a").child "b", (Place.root.child "a").child "b"] ∧
      (∀ i ∈ invocations wandering intoB .empty .initial,
        wandering.disk.enter .root "a" = .ok i.start) ∧
      (execute wandering intoB .empty .initial).world.host.directory = .root := by
  obtain ⟨-, hstart, hend⟩ := execute_directory wandering intoB .empty .initial
  exact ⟨by decide +kernel, by decide +kernel, hstart, hend⟩

end Runbook.Run
