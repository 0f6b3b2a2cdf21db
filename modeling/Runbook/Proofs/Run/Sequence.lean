/-
  Programs that run one after the other.

  A run of two lists of statements is a run of the first and then, from what that
  leaves, a run of the second.  Two facts about runs carry this: the index of the
  first statement shows in errors only (`runFrom_shift`), and the times and events
  before a run are kept in front of its own (`runFrom_after`).  The total of both is
  taken from the first and the last reading of the clock, so that the totals of the
  two make it up to rounding.

  * `execute_append`: **executing two programs in a row**;
  * `execute_append_rounded`: their totals need not add up.
-/
import Runbook.Proofs.Host.Clock
import Runbook.Proofs.Run.Attempt

namespace Runbook.Run

open Script (Statement)

/-! ## The index of the first statement -/

/-- An issue with its index changed. -/
def Issue.reindex (f : Nat → Nat) (i : Issue) : Issue := { i with index := f i.index }

/-- An error with every index of a statement changed, and with it the index that its message tells. -/
def RunError.reindex (f : Nat → Nat) : RunError → RunError
  | invalid issues => .invalid (issues.map (Issue.reindex f))
  | undefinedVariable name index command => .undefinedVariable name (f index) command
  | action command index fault => .action command (f index) fault
  | directory fault => .directory fault
  | aborted message => .aborted message

theorem Ending.error?_reindex (e : Ending) (f : Nat → Nat) (index : Nat) (command : String) :
    e.error? (f index) command = (e.error? index command).map (RunError.reindex f) := by
  cases e with
  | called _ o _ => cases o <;> rfl
  | _ => rfl

/-- The index of the first statement shows in errors only. -/
theorem runFrom_shift (setup : Setup) (n : Nat) : ∀ (index : Nat) (ss : List Statement)
    (p : Progress), runFrom setup (index + n) ss p =
      ((runFrom setup index ss p).1,
        (runFrom setup index ss p).2.map (RunError.reindex (· + n)))
  | _, [], _ => rfl
  | index, s :: ss, p => by
    rw [runFrom_cons, runFrom_cons, Ending.error?_reindex _ (· + n) index]
    cases (attempt setup s p.bindings p.world).error? index s.command.name with
    | some e => rfl
    | none =>
      have ih := runFrom_shift setup n (index + 1) ss
        (p.follow setup.logger s (attempt setup s p.bindings p.world))
      rwa [Nat.add_right_comm] at ih

/-! ## What was before a run -/

/-- Progress that was made after other times and events. -/
def Progress.after (p : Progress) (times : Table String Rat) (events : List Event) : Progress :=
  { p with times := times.update p.times, events := events ++ p.events }

theorem Progress.follow_after (p : Progress) (times : Table String Rat) (events : List Event)
    (logger : String) (s : Statement) (e : Ending) :
    (p.after times events).follow logger s e = (p.follow logger s e).after times events := by
  have ht : e.times s p.world (times.update p.times) =
      times.update (e.times s p.world p.times) := by
    cases e with
    | called _ o _ =>
      cases o with
      | returned v => exact (Table.update_insert ..).symm
      | _ => rfl
    | _ => rfl
  simp only [Progress.follow, Progress.after, ht, List.append_assoc]

/-- A run keeps what was before it in front of its own. -/
theorem runFrom_after (setup : Setup) (times : Table String Rat) (events : List Event) :
    ∀ (index : Nat) (ss : List Statement) (p : Progress),
      runFrom setup index ss (p.after times events) =
        ((runFrom setup index ss p).1.after times events, (runFrom setup index ss p).2)
  | _, [], _ => rfl
  | index, s :: ss, p => by
    have ha : attempt setup s (p.after times events).bindings (p.after times events).world =
        attempt setup s p.bindings p.world := rfl
    rw [runFrom_cons, runFrom_cons, ha, Progress.follow_after]
    cases (attempt setup s p.bindings p.world).error? index s.command.name with
    | some e => rfl
    | none => exact runFrom_after setup times events (index + 1) ss _

/-! ## Executing in a row -/

/-- No run turns the clock back. -/
theorem clock_le_runFrom (setup : Setup) : ∀ (index : Nat) (ss : List Statement) (p : Progress),
    p.world.clock ≤ (runFrom setup index ss p).1.world.clock
  | _, [], _ => Nat.le_refl _
  | index, s :: ss, p => by
    have hs : p.world.clock ≤
        (p.follow setup.logger s (attempt setup s p.bindings p.world)).world.clock := by
      cases ha : attempt setup s p.bindings p.world with
      | called => exact clock_le_attempt ha
      | _ => exact Nat.le_refl _
    rw [runFrom_cons]
    cases (attempt setup s p.bindings p.world).error? index s.command.name with
    | some e => exact hs
    | none => exact Nat.le_trans hs (clock_le_runFrom setup (index + 1) ss _)

/-- **Executing two programs in a row.**  If the first fails, that is all; otherwise the second goes
on with the bindings and the world that the first left, and its events follow.  The times of both are
put together.  The total is the sum of the totals up to rounding, and without rounding if the clock
stood at eighths of a second.  An error of the second counts the statements of the first. -/
theorem execute_append (setup : Setup) (ss ts : List Statement) (b : Bindings) (w : World) :
    let first := execute setup ss b w
    let whole := execute setup (ss ++ ts) b w
    match first.result with
    | .error _ => whole = first
    | .ok s =>
      let second := execute setup ts s.bindings first.world
      whole.world = second.world ∧ whole.events = first.events ++ second.events ∧
        match second.result with
        | .ok t => ∃ total, whole.result = .ok ⟨t.bindings, s.times.update t.times, total⟩ ∧
            |total - (s.total + t.total)| ≤ total / 2 ^ 49 ∧
            (InEighths w.clock → InEighths first.world.clock → InEighths second.world.clock →
              total = s.total + t.total)
        | .error e => whole.result = .error (e.reindex (· + ss.length)) := by
  simp only [execute, runFrom_append]
  have hw := clock_le_runFrom setup 0 ss ⟨b, .empty, w, []⟩
  cases hf : runFrom setup 0 ss ⟨b, .empty, w, []⟩ with
  | mk p r =>
    cases r with
    | some e => rfl
    | none =>
      -- the second run starts as one of its own would, with times and events before it
      have hp : (⟨p.bindings, .empty, p.world, []⟩ : Progress).after p.times p.events = p := by
        simp [Progress.after, Table.update_empty]
      have ht := runFrom_after setup p.times p.events 0 ts ⟨p.bindings, .empty, p.world, []⟩
      have hw' := clock_le_runFrom setup 0 ts ⟨p.bindings, .empty, p.world, []⟩
      rw [hp] at ht
      simp only [runFrom_shift setup ss.length 0 ts p, ht]
      cases hs : runFrom setup 0 ts ⟨p.bindings, .empty, p.world, []⟩ with
      | mk q r =>
        rw [hf] at hw
        rw [hs] at hw'
        cases r with
        | some e => exact ⟨rfl, rfl, rfl⟩
        | none =>
          exact ⟨rfl, rfl, _, rfl, elapsed_add_near hw hw',
            fun hstart hmiddle hstop => elapsed_add hstart hmiddle hstop hw hw'⟩

/-- Two commands that take eight and 71 units of time. -/
def blinking (unit : Nat) : Setup :=
  let command (units : Nat) : Definition :=
    ⟨fun _ _ host => ⟨.returned .null, units * unit, host⟩, none, [], none⟩
  ⟨⟨[("blink", command 8), ("nod", command 71)], by simp⟩, ⟨[], .empty⟩, none, "blinking"⟩

def blink : Statement := ⟨none, "blink", [], .empty⟩

def nod : Statement := ⟨none, "nod", [], .empty⟩

theorem execute_append_eighths :
    InEighths (8 * eighth) ∧ InEighths (79 * eighth) ∧
      ∃ summary, (execute (blinking eighth) ([blink] ++ [nod]) .empty .initial).result =
          .ok summary ∧
        summary.total = elapsed 0 (8 * eighth) + elapsed (8 * eighth) (79 * eighth) := by
  have hstart : InEighths 0 := ⟨by decide, by decide⟩
  have hmiddle : InEighths (8 * eighth) := ⟨⟨8, rfl⟩, by decide⟩
  have hstop : InEighths (79 * eighth) := ⟨⟨79, rfl⟩, by decide⟩
  obtain ⟨-, -, total, hresult, -, htotal⟩ :=
    execute_append (blinking eighth) [blink] [nod] .empty .initial
  exact ⟨hmiddle, hstop, _, hresult, htotal hstart hmiddle hstop⟩

/-- In milliseconds the totals need not add up. -/
theorem execute_append_rounded :
    ∃ s t total, (execute (blinking millisecond) [blink] .empty .initial).result = .ok s ∧
      (execute (blinking millisecond) [nod] s.bindings
        (execute (blinking millisecond) [blink] .empty .initial).world).result = .ok t ∧
      (execute (blinking millisecond) ([blink] ++ [nod]) .empty .initial).result =
        .ok ⟨t.bindings, s.times.update t.times, total⟩ ∧
      total = 79 ∧ 79 < s.total + t.total := by
  let start := 8 * millisecond
  let stop := start + 71 * millisecond
  let s : Summary := ⟨.empty, ⟨[("blink", elapsed 0 start)], by decide⟩, elapsed 0 start⟩
  let t : Summary := ⟨.empty, ⟨[("nod", elapsed start stop)], by decide⟩, elapsed start stop⟩
  have htotals : elapsed 0 stop = 79 ∧ 79 < elapsed 0 start + elapsed start stop := by
    decide +kernel
  exact ⟨s, t, elapsed 0 stop, rfl, rfl, rfl, htotals⟩

end Runbook.Run
