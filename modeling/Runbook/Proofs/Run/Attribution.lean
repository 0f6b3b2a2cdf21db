/-
  Which actions a run calls, and which statement its error blames.

  `Completes` is the run of statements that all complete, said without indices,
  logs or times: each is called once, in order, in the bindings and the world that
  those before it left.

  * `execute_eq_error_iff`: the error of a run is what becomes of one of its
    statements, after those before it completed;
  * `exists_attempt_of_call`: a call of a run is that of the statement in its place;
  * `execute_attribution`: a run that succeeds completes all its statements; one
    that fails completes those before some statement, and its error is what
    becomes of that statement, told with its index and its command.
-/
import Runbook.Proofs.Run.Attempt

namespace Runbook.Run

open Script (Statement)

/-- The calls among events, in order. -/
def callsOf (events : List Event) : List (String × Arguments) :=
  events.filterMap fun e => match e with
    | .logged _ => none
    | .invoked command args => some (command, args)

@[simp] theorem callsOf_append (es fs : List Event) :
    callsOf (es ++ fs) = callsOf es ++ callsOf fs :=
  List.filterMap_append ..

@[simp] theorem callsOf_called (logger : String) (s : Statement) (args : Arguments) (o : Outcome)
    (w : World) : callsOf ((Ending.called args o w).events logger s) = [(s.command.name, args)] :=
  rfl

/-- The statements that an error names, by index and command. -/
def RunError.places : RunError → List (Nat × String)
  | invalid issues => issues.map fun i => (i.index, i.command)
  | undefinedVariable _ index command => [(index, command)]
  | action command index _ => [(index, command)]
  | directory _ | aborted _ => []

/-- The statements complete one after another: every one of them is called in what those before it
left, and returns. -/
inductive Completes (setup : Setup) : List Statement → Bindings → World →
    List (String × Arguments) → Bindings → World → Prop
  | nil (b : Bindings) (w : World) : Completes setup [] b w [] b w
  | cons {s : Statement} {ss : List Statement} {b b' : Bindings} {w w₁ w' : World}
      {args : Arguments} {v : Value} {calls : List (String × Arguments)} :
      attempt setup s b w = .called args (.returned v) w₁ →
      Completes setup ss (assign b s.target v) w₁ calls b' w' →
      Completes setup (s :: ss) b w ((s.command.name, args) :: calls) b' w'

/-- Statements that complete are called once each, in order. -/
theorem Completes.names {setup : Setup} {ss : List Statement} {b b' : Bindings} {w w' : World}
    {calls : List (String × Arguments)} (h : Completes setup ss b w calls b' w') :
    calls.map Prod.fst = ss.map (·.command.name) := by
  induction h with
  | nil => rfl
  | cons _ _ ih => rw [List.map_cons, List.map_cons, ih]

/-- What statements leave when they complete is determined by what they start in. -/
theorem Completes.unique {setup : Setup} {ss : List Statement} {b b' b'' : Bindings}
    {w w' w'' : World} {calls calls' : List (String × Arguments)}
    (h : Completes setup ss b w calls b' w') (h' : Completes setup ss b w calls' b'' w'') :
    calls = calls' ∧ b' = b'' ∧ w' = w'' := by
  induction h generalizing calls' b'' w'' with
  | nil => cases h'; exact ⟨rfl, rfl, rfl⟩
  | cons ha _ ih =>
    cases h' with
    | cons ha' h' =>
      rw [ha] at ha'
      cases ha'
      obtain ⟨rfl, rfl, rfl⟩ := ih h'
      exact ⟨rfl, rfl, rfl⟩

/-- Statements complete if all but the last do and then the last one returns. -/
theorem Completes.exists_of_concat {setup : Setup} {s : Statement} {b' : Bindings} {w' : World} :
    ∀ {ss : List Statement} {b : Bindings} {w : World} {calls : List (String × Arguments)},
      Completes setup (ss ++ [s]) b w calls b' w' → ∃ calls₁ b₁ w₁ args v,
        Completes setup ss b w calls₁ b₁ w₁ ∧
        attempt setup s b₁ w₁ = .called args (.returned v) w' ∧ b' = assign b₁ s.target v
  | [], b, w, _, .cons ha (.nil _ _) => ⟨[], b, w, _, _, .nil .., ha, rfl⟩
  | _ :: _, _, _, _, .cons ha h => by
    obtain ⟨calls₁, b₁, w₁, args, v, hc, hs, hb⟩ := exists_of_concat h
    exact ⟨_ :: calls₁, b₁, w₁, args, v, .cons ha hc, hs, hb⟩

/-! ## Runs -/

/-- A run of statements that complete has no error and leaves what they leave. -/
theorem Completes.runFrom {setup : Setup} {ss : List Statement} {b b' : Bindings} {w w' : World}
    {calls : List (String × Arguments)} (h : Completes setup ss b w calls b' w') (index : Nat)
    (p : Progress) (hb : p.bindings = b) (hw : p.world = w) :
    ∃ q, runFrom setup index ss p = (q, none) ∧ q.bindings = b' ∧ q.world = w' := by
  induction h generalizing index p with
  | nil => exact ⟨p, rfl, hb, hw⟩
  | cons ha _ ih =>
    subst hb hw
    rw [runFrom_cons, ha]
    exact ih (index + 1) _ rfl rfl

/-- A run without an error completes its statements. -/
theorem completes_of_runFrom {setup : Setup} : ∀ {index : Nat} {ss : List Statement}
    {p q : Progress}, runFrom setup index ss p = (q, none) →
    ∃ calls, Completes setup ss p.bindings p.world calls q.bindings q.world ∧
      callsOf q.events = callsOf p.events ++ calls
  | _, [], p, q, h => by
    cases h
    exact ⟨[], .nil .., by simp⟩
  | index, s :: ss, p, q, h => by
    rw [runFrom_cons] at h
    cases he : (attempt setup s p.bindings p.world).error? index s.command.name with
    | some e => rw [he] at h; cases h
    | none =>
      rw [he] at h
      obtain ⟨args, v, w₁, ha⟩ := Ending.error?_eq_none_iff.1 he
      obtain ⟨calls, hc, hcalls⟩ := completes_of_runFrom h
      rw [ha] at hc hcalls
      refine ⟨(s.command.name, args) :: calls, .cons ha hc, ?_⟩
      rw [hcalls, Progress.follow, callsOf_append, callsOf_called]
      simp

/-- A run with an error completes the statements before one that does not. -/
theorem completes_of_runFrom_error {setup : Setup} : ∀ {index : Nat} {ss : List Statement}
    {p q : Progress} {e : RunError}, runFrom setup index ss p = (q, some e) →
    ∃ before s after calls b w, ss = before ++ s :: after ∧
      Completes setup before p.bindings p.world calls b w ∧
      (attempt setup s b w).error? (index + before.length) s.command.name = some e ∧
      callsOf q.events =
        callsOf p.events ++ calls ++ callsOf ((attempt setup s b w).events setup.logger s) ∧
      q.world = (attempt setup s b w).world w
  | _, [], _, _, _, h => by cases h
  | index, s :: ss, p, q, e, h => by
    rw [runFrom_cons] at h
    cases he : (attempt setup s p.bindings p.world).error? index s.command.name with
    | some e' =>
      rw [he] at h
      cases h
      exact ⟨[], s, ss, [], p.bindings, p.world, rfl, .nil .., he,
        by simp [Progress.follow, callsOf_append], rfl⟩
    | none =>
      rw [he] at h
      obtain ⟨args, v, w₁, ha⟩ := Ending.error?_eq_none_iff.1 he
      obtain ⟨before, t, after, calls, b, w, rfl, hc, ht, hcalls, hw⟩ :=
        completes_of_runFrom_error h
      rw [ha] at hc hcalls
      refine ⟨s :: before, t, after, (s.command.name, args) :: calls, b, w, rfl, .cons ha hc, ?_,
        ?_, hw⟩
      · rwa [List.length_cons, Nat.add_comm before.length, ← Nat.add_assoc]
      · rw [hcalls, Progress.follow, callsOf_append, callsOf_called]
        simp

/-- A program that succeeds completes its statements. -/
theorem completes_of_execute {setup : Setup} {ss : List Statement} {b : Bindings} {w : World}
    {summary : Summary} (h : (execute setup ss b w).result = .ok summary) :
    ∃ calls, Completes setup ss b w calls summary.bindings (execute setup ss b w).world := by
  unfold execute at h ⊢
  cases hr : runFrom setup 0 ss ⟨b, .empty, w, []⟩ with
  | mk q r =>
    rw [hr] at h
    cases r with
    | some e => cases h
    | none =>
      cases h
      obtain ⟨calls, hc, -⟩ := completes_of_runFrom hr
      exact ⟨calls, hc⟩

/-- Executing statements that complete succeeds and leaves what they leave. -/
theorem Completes.execute {setup : Setup} {ss : List Statement} {b b' : Bindings} {w w' : World}
    {calls : List (String × Arguments)} (h : Completes setup ss b w calls b' w') :
    ∃ summary, (Run.execute setup ss b w).result = .ok summary ∧ summary.bindings = b' ∧
      (Run.execute setup ss b w).world = w' := by
  obtain ⟨q, hq, hb, rfl⟩ := h.runFrom 0 ⟨b, .empty, w, []⟩ rfl rfl
  unfold Run.execute
  rw [hq]
  exact ⟨⟨q.bindings, q.times, elapsed w.clock q.world.clock⟩, rfl, hb, rfl⟩

theorem execute_eq_error_iff {setup : Setup} {ss : List Statement} {b : Bindings} {w : World}
    {e : RunError} : (execute setup ss b w).result = .error e ↔
      ∃ before s after calls b' w', ss = before ++ s :: after ∧
        Completes setup before b w calls b' w' ∧
        (attempt setup s b' w').error? before.length s.command.name = some e := by
  unfold execute
  constructor
  · intro h
    cases hr : runFrom setup 0 ss ⟨b, .empty, w, []⟩ with
    | mk q r =>
      rw [hr] at h
      cases r with
      | none => cases h
      | some e' =>
        cases h
        obtain ⟨before, s, after, calls, b', w', hss, hc, he, -⟩ := completes_of_runFrom_error hr
        exact ⟨before, s, after, calls, b', w', hss, hc, by rwa [Nat.zero_add] at he⟩
  · rintro ⟨before, s, after, calls, b', w', rfl, hc, he⟩
    obtain ⟨q, hq, rfl, rfl⟩ := hc.runFrom 0 ⟨b, .empty, w, []⟩ rfl rfl
    rw [runFrom_append, hq]
    simp only [Nat.zero_add]
    rw [runFrom_cons, he]

/-- The calls that a run adds: each is that of the statement in its place, which is called in what
the statements before it leave. -/
theorem exists_attempt_of_runFrom_call (setup : Setup) : ∀ (index : Nat) (ss : List Statement)
    (p : Progress), ∃ calls,
      callsOf (runFrom setup index ss p).1.events = callsOf p.events ++ calls ∧
      ∀ i name args, calls[i]? = some (name, args) → ∃ s before b w o w',
        ss[i]? = some s ∧ name = s.command.name ∧
        Completes setup (ss.take i) p.bindings p.world before b w ∧
        attempt setup s b w = .called args o w'
  | _, [], p => ⟨[], by simp [runFrom], fun _ _ _ h => by cases h⟩
  | index, s :: ss, p => by
    cases ha : attempt setup s p.bindings p.world with
    | called args o w₁ =>
      have hfirst : ∃ s' before b w o' w', (s :: ss)[0]? = some s' ∧
          s.command.name = s'.command.name ∧
          Completes setup ((s :: ss).take 0) p.bindings p.world before b w ∧
          attempt setup s' b w = .called args o' w' :=
        ⟨s, [], p.bindings, p.world, o, w₁, rfl, rfl, .nil .., ha⟩
      have hevents : callsOf (p.follow setup.logger s (.called args o w₁)).events =
          callsOf p.events ++ [(s.command.name, args)] := by
        rw [Progress.follow, callsOf_append, callsOf_called]
      cases o with
      | returned v =>
        obtain ⟨calls, hcalls, h⟩ := exists_attempt_of_runFrom_call setup (index + 1) ss
          (p.follow setup.logger s (.called args (.returned v) w₁))
        refine ⟨(s.command.name, args) :: calls, ?_, fun i name args' hi => ?_⟩
        · rw [hevents, List.append_assoc] at hcalls
          rw [runFrom_cons, ha]
          exact hcalls
        · cases i with
          | zero => cases hi; exact hfirst
          | succ i =>
            obtain ⟨t, before, b, w, o, w', ht, hn, hc, hat⟩ := h i name args' hi
            exact ⟨t, _, b, w, o, w', ht, hn, .cons ha hc, hat⟩
      | _ =>
        refine ⟨[(s.command.name, args)], ?_, fun i name args' hi => ?_⟩
        · rw [runFrom_cons, ha]
          exact hevents
        · -- A call that does not return is the last one.
          cases i with
          | zero => cases hi; exact hfirst
          | succ i => cases hi
    | _ =>
      refine ⟨[], ?_, fun _ _ _ h => by cases h⟩
      rw [runFrom_cons, ha]
      simp [Progress.follow, callsOf]

theorem exists_attempt_of_call {setup : Setup} {ss : List Statement} {b : Bindings} {w : World}
    {i : Nat} {name : String} {args : Arguments}
    (h : (callsOf (execute setup ss b w).events)[i]? = some (name, args)) :
    ∃ s before b' w' o w'', ss[i]? = some s ∧ name = s.command.name ∧
      Completes setup (ss.take i) b w before b' w' ∧
      attempt setup s b' w' = .called args o w'' := by
  obtain ⟨calls, hcalls, hattempt⟩ := exists_attempt_of_runFrom_call setup 0 ss ⟨b, .empty, w, []⟩
  have hevents : callsOf (execute setup ss b w).events = calls := by
    refine Eq.trans ?_ hcalls
    unfold execute
    split <;> simp_all
  exact hattempt i name args (hevents ▸ h)

/-- **Who is to blame.**  A run that succeeds calls every statement, once and in order.  A run that
fails does so with all statements before one, and none after; that one is called exactly if the
error comes out of its action, and whatever an action raises is told as its fault. -/
theorem execute_attribution (setup : Setup) (ss : List Statement) (b : Bindings) (w : World) :
    let run := execute setup ss b w
    let called := callsOf run.events
    match run.result with
    | .ok summary =>
      Completes setup ss b w called summary.bindings run.world ∧
        called.map Prod.fst = ss.map (·.command.name)
    | .error e => ∃ before s after calls b' w',
      ss = before ++ s :: after ∧ Completes setup before b w calls b' w' ∧
      calls.map Prod.fst = before.map (·.command.name) ∧
      (∀ place ∈ e.places, place = (before.length, s.command.name)) ∧
      match attempt setup s b' w' with
      | .unregistered => called = calls ∧ run.world = w' ∧
          e = .invalid [⟨.unknownCommand, before.length, s.command.name⟩]
      | .undefined x => called = calls ∧ run.world = w' ∧
          e = .undefinedVariable x before.length s.command.name
      | .unreachable fault => called = calls ∧ run.world = w' ∧ e = .directory fault
      | .called args (.raised fault) w'' =>
          called = calls ++ [(s.command.name, args)] ∧ run.world = w'' ∧
          e = .action s.command.name before.length fault
      | .called args (.aborted message) w'' =>
          called = calls ++ [(s.command.name, args)] ∧ run.world = w'' ∧ e = .aborted message
      | .called _ (.returned _) _ => False := by
  simp only [execute]
  cases hr : runFrom setup 0 ss ⟨b, .empty, w, []⟩ with
  | mk q r =>
    cases r with
    | none =>
      obtain ⟨calls, hc, hcalls⟩ := completes_of_runFrom hr
      obtain rfl : callsOf q.events = calls := by simpa [callsOf] using hcalls
      exact ⟨hc, hc.names⟩
    | some e =>
      obtain ⟨before, s, after, calls, b', w', hss, hc, he, hcalls, hw⟩ :=
        completes_of_runFrom_error hr
      refine ⟨before, s, after, calls, b', w', hss, hc, hc.names, ?_⟩
      cases ha : attempt setup s b' w' with
      | called args o w'' =>
        rw [ha] at he hcalls hw
        cases o <;> cases he <;> simp_all [callsOf, RunError.places]
      | _ =>
        rw [ha] at he hcalls hw
        cases he
        simp_all [callsOf, RunError.places]

end Runbook.Run
