/-
  What becomes of a statement when its turn comes.

  `attempt` tries a statement in the bindings and the world of that moment and
  says how far it gets: its command is not registered, a variable is undefined,
  the working directory cannot be entered, or its action is called and ends in
  some way.  Everything that a run keeps book of follows from this ending.

  * `step_eq`: **a step of a run is an attempt and its bookkeeping**;
  * `attempt_called`: a call gets the registered action, the resolved arguments
    and the working directory, and is made once;
  * `clock_le_attempt`: no attempt turns the clock back.
-/
import Runbook.Proofs.Table
import Runbook.Run.Execute

namespace Runbook.Run

open Script (Statement)

/-- How an attempt ends. -/
inductive Ending where
  | unregistered
  | undefined (name : String)
  | unreachable (fault : PathFault)
  | called (arguments : Arguments) (outcome : Outcome) (world : World)

/-- Tries a statement. -/
def attempt (setup : Setup) (s : Statement) (bindings : Bindings) (w : World) : Ending :=
  match setup.registry.find? s.command.name with
  | none => .unregistered
  | some d =>
    match s.command.resolve bindings with
    | .error x => .undefined x
    | .ok args =>
      match setup.start w.host.directory with
      | .error fault => .unreachable fault
      | .ok start => .called args (setup.call d args start w).1 (setup.call d args start w).2

theorem attempt_called {setup : Setup} {s : Statement} {b : Bindings} {w w' : World}
    {args : Arguments} {o : Outcome} :
    attempt setup s b w = .called args o w' ↔
      ∃ d start, setup.registry.find? s.command.name = some d ∧ s.command.resolve b = .ok args ∧
        setup.start w.host.directory = .ok start ∧ setup.call d args start w = (o, w') := by
  unfold attempt
  constructor
  · intro h
    split at h
    · cases h
    · next d hd =>
      split at h
      · cases h
      · next args' ha =>
        split at h
        · cases h
        · next start hs =>
          cases h
          exact ⟨d, start, hd, ha, hs, rfl⟩
  · rintro ⟨d, start, hd, ha, hs, hc⟩
    simp only [hd, ha, hs, hc]

theorem attempt_unregistered {setup : Setup} {s : Statement} {b : Bindings} {w : World} :
    attempt setup s b w = .unregistered ↔ s.command.name ∉ setup.registry.keys := by
  rw [← Table.find?_eq_none_iff]
  unfold attempt
  cases setup.registry.find? s.command.name with
  | none => simp
  | some d =>
    cases s.command.resolve b with
    | error x => simp
    | ok args => cases setup.start w.host.directory <;> simp

/-- No call turns the clock back. -/
theorem clock_le_attempt {setup : Setup} {s : Statement} {b : Bindings} {w w' : World}
    {args : Arguments} {o : Outcome} (h : attempt setup s b w = .called args o w') :
    w.clock ≤ w'.clock := by
  obtain ⟨d, start, -, -, -, hc⟩ := attempt_called.1 h
  obtain rfl : (setup.call d args start w).2 = w' := congrArg Prod.snd hc
  exact Nat.le_add_right ..

/-! ## What an ending leaves behind -/

namespace Ending

/-- The error of an ending, in a statement at an index. -/
@[simp] def error? (index : Nat) (command : String) : Ending → Option RunError
  | unregistered => some (.invalid [⟨.unknownCommand, index, command⟩])
  | undefined x => some (.undefinedVariable x index command)
  | unreachable fault => some (.directory fault)
  | called _ (.raised fault) _ => some (.action command index fault)
  | called _ (.aborted message) _ => some (.aborted message)
  | called _ (.returned _) _ => none

/-- What an ending shows.  The record of the statement comes before the call. -/
@[simp] def events (logger : String) (s : Statement) : Ending → List Event
  | unregistered | undefined _ => []
  | unreachable _ => [.logged (executing logger s)]
  | called args _ _ => [.logged (executing logger s), .invoked s.command.name args]

/-- The world after an ending. -/
@[simp] def world (w : World) : Ending → World
  | called _ _ w' => w'
  | _ => w

/-- The bindings after an ending. -/
@[simp] def bindings (s : Statement) (b : Bindings) : Ending → Bindings
  | called _ (.returned v) _ => assign b s.target v
  | _ => b

/-- The times after an ending. -/
@[simp] def times (s : Statement) (w : World) (t : Table String Rat) : Ending → Table String Rat
  | called _ (.returned _) w' => t.insert s.command.name (elapsed w.clock w'.clock)
  | _ => t

end Ending

/-- The progress after the attempt of a statement. -/
def Progress.follow (logger : String) (s : Statement) (p : Progress) (e : Ending) : Progress :=
  ⟨e.bindings s p.bindings, e.times s p.world p.times, e.world p.world,
    p.events ++ e.events logger s⟩

/-- **A step is an attempt and its bookkeeping.** -/
theorem step_eq (setup : Setup) (index : Nat) (s : Statement) (p : Progress) :
    step setup index s p =
      (p.follow setup.logger s (attempt setup s p.bindings p.world),
        (attempt setup s p.bindings p.world).error? index s.command.name) := by
  cases hd : setup.registry.find? s.command.name with
  | none => simp [step, attempt, hd, Progress.follow]
  | some d =>
    cases ha : s.command.resolve p.bindings with
    | error x => simp [step, attempt, hd, ha, Progress.follow]
    | ok args =>
      cases hs : setup.start p.world.host.directory with
      | error fault => simp [step, attempt, hd, ha, hs, Progress.follow]
      | ok start =>
        cases hc : setup.call d args start p.world with
        | mk o w' => cases o <;> simp [step, attempt, hd, ha, hs, hc, Progress.follow]

/-- A run goes on with what the first attempt leaves, if that has no error. -/
theorem runFrom_cons (setup : Setup) (index : Nat) (s : Statement) (ss : List Statement)
    (p : Progress) :
    runFrom setup index (s :: ss) p =
      match (attempt setup s p.bindings p.world).error? index s.command.name with
      | some e => (p.follow setup.logger s (attempt setup s p.bindings p.world), some e)
      | none => runFrom setup (index + 1) ss
          (p.follow setup.logger s (attempt setup s p.bindings p.world)) := by
  rw [runFrom, step_eq]
  cases (attempt setup s p.bindings p.world).error? index s.command.name <;> rfl

/-- An attempt without an error is a call that returned. -/
theorem Ending.error?_eq_none_iff {e : Ending} {index : Nat} {command : String} :
    e.error? index command = none ↔ ∃ args v w', e = .called args (.returned v) w' := by
  constructor
  · intro h
    cases e with
    | called args o w' =>
      cases o with
      | returned v => exact ⟨args, v, w', rfl⟩
      | raised => cases h
      | aborted => cases h
    | _ => cases h
  · rintro ⟨args, v, w', rfl⟩
    rfl

theorem Ending.error?_eq_invalid_iff {e : Ending} {index : Nat} {command : String}
    {issues : List Issue} : e.error? index command = some (.invalid issues) ↔
      e = .unregistered ∧ issues = [⟨.unknownCommand, index, command⟩] := by
  cases e with
  | called _ o _ => cases o <;> simp
  | _ => simp [eq_comm]

theorem Ending.error?_eq_undefined_iff {e : Ending} {index k : Nat} {command x c : String} :
    e.error? index command = some (.undefinedVariable x k c) ↔
      e = .undefined x ∧ index = k ∧ command = c := by
  cases e with
  | called _ o _ => cases o <;> simp
  | _ => simp

end Runbook.Run
