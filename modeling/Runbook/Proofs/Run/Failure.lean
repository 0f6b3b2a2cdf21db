/-
  The errors in which runs end.

  An error `Names` a statement if it is of one of the three kinds that carry the
  index and the command of the statement to blame.

  * `attempt_unreachable` and `Completes.eq_nil_of_unreachable`: only the first
    statement of a run can find that the working directory cannot be entered;
  * `execute_failure`: **every error of a run names the statement that fails, or is
    the abort of its action, or says that the working directory cannot be entered**;
  * `execute_failure_nowhere`: the last of these names no statement.
-/
import Runbook.Proofs.Run.Directory

namespace Runbook.Run

open Script (Statement)

/-- An error that tells the index and the command of a statement. -/
inductive RunError.Names (index : Nat) (command : String) : RunError → Prop
  | invalid : Names index command (.invalid [⟨.unknownCommand, index, command⟩])
  | undefinedVariable (x : String) : Names index command (.undefinedVariable x index command)
  | action (fault : Fault) : Names index command (.action command index fault)

theorem Ending.error?_eq_directory_iff {e : Ending} {index : Nat} {command : String}
    {fault : PathFault} :
    e.error? index command = some (.directory fault) ↔ e = .unreachable fault := by
  cases e with
  | called _ o _ => cases o <;> simp
  | _ => simp

section
variable {setup : Setup} {s : Statement} {ss : List Statement} {b b' : Bindings} {w w' : World}
  {calls : List (String × Arguments)}

theorem attempt_unreachable {fault : PathFault} : attempt setup s b w = .unreachable fault ↔
    s.command.name ∈ setup.registry.keys ∧ (∃ args, s.command.resolve b = .ok args) ∧
      setup.start w.host.directory = .error fault := by
  unfold attempt
  cases hd : setup.registry.find? s.command.name with
  | none => simp [Table.find?_eq_none_iff.1 hd]
  | some d =>
    have hk : s.command.name ∈ setup.registry.keys := Table.mem_keys_of_find? hd
    cases s.command.resolve b with
    | error x => simp
    | ok args => cases setup.start w.host.directory <;> simp [hk]

/-- Statements that complete with a working directory leave the current directory as it was. -/
theorem Completes.directory_eq {path : String} (h : Completes setup ss b w calls b' w')
    (hp : setup.scope? = some path) : w'.host.directory = w.host.directory := by
  obtain ⟨q, hq, -, rfl⟩ := h.runFrom 0 ⟨b, .empty, w, []⟩ rfl rfl
  obtain ⟨-, hwalk⟩ := walk_runFrom setup 0 ss ⟨b, .empty, w, []⟩
  rw [hq] at hwalk
  exact (hwalk.scoped hp).2

/-- A statement after another one that completes can be called. -/
theorem Completes.eq_nil_of_unreachable {fault : PathFault}
    (h : Completes setup ss b w calls b' w') (hs : attempt setup s b' w' = .unreachable fault) :
    ss = [] := by
  obtain ⟨-, -, hfault⟩ := attempt_unreachable.1 hs
  cases hp : setup.scope? with
  | none =>
    rw [start_of_no_scope hp] at hfault
    cases hfault
  | some path =>
    rw [start_of_scope hp, h.directory_eq hp] at hfault
    cases h with
    | nil => rfl
    | cons ha _ =>
      obtain ⟨-, start, -, -, hstart, -⟩ := attempt_called.1 ha
      rw [start_of_scope hp, hfault] at hstart
      cases hstart

end

/-- **How runs fail.**  The error of a run names the first statement that does not complete, with
its index and its command, unless the action of that statement aborts the run, or the working
directory cannot be entered from the current one.  That is what a run says exactly if the first
statement would be called otherwise. -/
theorem execute_failure (setup : Setup) (ss : List Statement) (b : Bindings) (w : World) :
    (∀ e, (execute setup ss b w).result = .error e →
      ∃ before s after calls b' w', ss = before ++ s :: after ∧
        Completes setup before b w calls b' w' ∧
        (e.Names before.length s.command.name ∨
          (∃ args message w'', attempt setup s b' w' = .called args (.aborted message) w'' ∧
            e = .aborted message) ∨
          ∃ fault, setup.start w.host.directory = .error fault ∧ e = .directory fault)) ∧
    ∀ fault, (execute setup ss b w).result = .error (.directory fault) ↔
      setup.start w.host.directory = .error fault ∧
        ∃ s after args, ss = s :: after ∧ s.command.name ∈ setup.registry.keys ∧
          s.command.resolve b = .ok args := by
  refine ⟨fun e h => ?_, fun fault => ⟨fun h => ?_, ?_⟩⟩
  · obtain ⟨before, s, after, calls, b', w', hss, hc, he⟩ := execute_eq_error_iff.1 h
    refine ⟨before, s, after, calls, b', w', hss, hc, ?_⟩
    cases ha : attempt setup s b' w' with
    | unregistered => rw [ha] at he; cases he; exact .inl .invalid
    | undefined x => rw [ha] at he; cases he; exact .inl (.undefinedVariable x)
    | unreachable fault =>
      obtain rfl := hc.eq_nil_of_unreachable ha
      cases hc
      rw [ha] at he
      cases he
      exact .inr (.inr ⟨fault, (attempt_unreachable.1 ha).2.2, rfl⟩)
    | called args o w'' =>
      rw [ha] at he
      cases o with
      | returned v => cases he
      | raised fault => cases he; exact .inl (.action fault)
      | aborted message => cases he; exact .inr (.inl ⟨args, message, w'', rfl, rfl⟩)
  · obtain ⟨before, s, after, calls, b', w', rfl, hc, he⟩ := execute_eq_error_iff.1 h
    have ha := Ending.error?_eq_directory_iff.1 he
    obtain rfl := hc.eq_nil_of_unreachable ha
    cases hc
    obtain ⟨hk, ⟨args, hargs⟩, hfault⟩ := attempt_unreachable.1 ha
    exact ⟨hfault, s, after, args, rfl, hk, hargs⟩
  · rintro ⟨hfault, s, after, args, rfl, hk, hargs⟩
    have ha := attempt_unreachable.2 ⟨hk, ⟨args, hargs⟩, hfault⟩
    exact execute_eq_error_iff.2
      ⟨[], s, after, [], b, w, rfl, .nil b w, Ending.error?_eq_directory_iff.2 ha⟩

/-- A command that returns, one that fails and one that ends the run, in some working directory. -/
def threeEnds (workingDir : Option String) : Setup :=
  let ending (o : Outcome) : Definition := ⟨fun _ _ host => ⟨o, 0, host⟩, none, [], none⟩
  ⟨⟨[("ok", ending (.returned .null)), ("fail", ending (.raised (.runtime "boom"))),
    ("abort", ending (.aborted "stop"))], by decide⟩, .empty, workingDir, "ends"⟩

/-- A bare statement without arguments. -/
def bare (command : String) : Statement := ⟨none, command, [], .empty⟩

theorem execute_failure_second :
    (execute (threeEnds none) [bare "ok", bare "fail"] .empty .initial).result =
        .error (.action "fail" 1 (.runtime "boom")) ∧
      ∃ before s after calls b w, [bare "ok", bare "fail"] = before ++ s :: after ∧
        Completes (threeEnds none) before .empty .initial calls b w ∧
        (RunError.action "fail" 1 (.runtime "boom")).Names before.length s.command.name := by
  refine ⟨rfl, ?_⟩
  obtain ⟨before, s, after, calls, b, w, hss, hc, h | ⟨_, _, _, -, h⟩ | ⟨_, -, h⟩⟩ :=
    (execute_failure (threeEnds none) [bare "ok", bare "fail"] .empty .initial).1 _ rfl
  · exact ⟨before, s, after, calls, b, w, hss, hc, h⟩
  · cases h
  · cases h

/-- A working directory that does not exist makes an error that names no statement, although no
action aborted the run. -/
theorem execute_failure_nowhere :
    ∃ e, (execute (threeEnds (some "no")) [bare "ok"] .empty .initial).result = .error e ∧
      (∀ index command, ¬ e.Names index command) ∧ ∀ message, e ≠ .aborted message := by
  have hstart : (threeEnds (some "no")).start .root = .error (.missing "no") := rfl
  have ha : attempt (threeEnds (some "no")) (bare "ok") .empty .initial =
      .unreachable (.missing "no") :=
    attempt_unreachable.2 ⟨by decide, ⟨⟨[], .empty⟩, rfl⟩, hstart⟩
  refine ⟨.directory (.missing "no"), execute_eq_error_iff.2 ⟨[], bare "ok", [], [], .empty,
    .initial, rfl, .nil .., Ending.error?_eq_directory_iff.2 ha⟩, fun index command h => ?_,
    fun _ h => ?_⟩
  · cases h
  · cases h

end Runbook.Run
