/-
  Runs that no check came before.

  A check scans all statements; a run looks a command up when its turn comes.  Both
  find the same command unregistered first, unless something else ends the run.

  * `firstUnregistered?_eq_some_iff`: the first issue of its kind that a check finds is
    that of the first statement whose command is not registered;
  * `execute_error`: what a failing run leaves behind;
  * `execute_unchecked`: **a run that calls a statement invalid has the first such issue
    of the check, after all statements before it**.
-/
import Runbook.Proofs.Run.Check

namespace Runbook.Run

open Script (Statement)

section
variable {registry : Registry}

/-! ## The first unregistered command -/

/-- The first issue of a check that is about a command which is not registered. -/
def firstUnregistered? (registry : Registry) (ss : List Statement) : Option Issue :=
  (check registry ss).find? (·.problem = .unknownCommand)

theorem find?_issueOf?_of_mem {index : Nat} {s : Statement} (h : s.command.name ∈ registry.keys) :
    (issueOf? registry index s).toList.find? (·.problem = .unknownCommand) = none := by
  rw [List.find?_eq_none]
  intro i hi
  obtain ⟨-, -, hp⟩ := issueOf?_eq_some_iff.1 (Option.mem_toList.1 hi)
  cases hp' : i.problem with
  | missingAssignment returns => simp
  | unknownCommand =>
    rw [hp'] at hp
    cases hp with
    | unregistered hk => exact absurd h hk

theorem issueOf?_of_not_mem {index : Nat} {s : Statement} (h : s.command.name ∉ registry.keys) :
    issueOf? registry index s = some ⟨.unknownCommand, index, s.command.name⟩ :=
  issueOf?_eq_some_iff.2 ⟨rfl, rfl, .unregistered h⟩

theorem find?_checkFrom_eq_some_iff {i : Issue} : ∀ {index : Nat} {ss : List Statement},
    (checkFrom registry index ss).find? (·.problem = .unknownCommand) = some i ↔
      ∃ before s after, ss = before ++ s :: after ∧
        (∀ t ∈ before, t.command.name ∈ registry.keys) ∧ s.command.name ∉ registry.keys ∧
        i = ⟨.unknownCommand, index + before.length, s.command.name⟩
  | _, [] => by simp [checkFrom]
  | index, s :: ss => by
    rw [checkFrom, List.find?_append]
    by_cases hk : s.command.name ∈ registry.keys
    · rw [find?_issueOf?_of_mem hk, Option.none_or, find?_checkFrom_eq_some_iff]
      constructor
      · rintro ⟨before, t, after, rfl, hbefore, ht, rfl⟩
        refine ⟨s :: before, t, after, rfl, by simpa [hk] using hbefore, ht, ?_⟩
        rw [List.length_cons, Nat.add_comm before.length, Nat.add_assoc]
      · rintro ⟨before, t, after, hss, hbefore, ht, rfl⟩
        cases before with
        | nil => cases hss; exact absurd hk ht
        | cons u before =>
          cases hss
          refine ⟨before, t, after, rfl, fun v hv => hbefore v (.tail _ hv), ht, ?_⟩
          rw [List.length_cons, Nat.add_comm before.length, Nat.add_assoc]
    · rw [issueOf?_of_not_mem hk]
      constructor
      · intro h
        exact ⟨[], s, ss, rfl, by simp, hk, by simpa using h.symm⟩
      · rintro ⟨before, t, after, hss, hbefore, ht, rfl⟩
        cases before with
        | nil => cases hss; simp
        | cons u before => cases hss; exact absurd (hbefore s (.head _)) hk

theorem firstUnregistered?_eq_some_iff {ss : List Statement} {i : Issue} :
    firstUnregistered? registry ss = some i ↔
      ∃ before s after, ss = before ++ s :: after ∧
        (∀ t ∈ before, t.command.name ∈ registry.keys) ∧ s.command.name ∉ registry.keys ∧
        i = ⟨.unknownCommand, before.length, s.command.name⟩ := by
  simp only [firstUnregistered?, check, find?_checkFrom_eq_some_iff, Nat.zero_add]

end

section
variable {setup : Setup} {ss : List Statement} {b b' : Bindings} {w w' : World}
  {calls : List (String × Arguments)}

/-! ## Failing runs -/

/-- The commands of statements that complete are registered. -/
theorem Completes.mem_keys (h : Completes setup ss b w calls b' w') :
    ∀ s ∈ ss, s.command.name ∈ setup.registry.keys := by
  induction h with
  | nil => simp
  | @cons s _ _ _ _ _ _ _ _ _ ha _ ih =>
    obtain ⟨d, -, hd, -⟩ := attempt_called.1 ha
    exact List.forall_mem_cons.2 ⟨Table.mem_keys_of_find? hd, ih⟩

/-- A failing run leaves what the statements before some statement and the attempt of that one
leave. -/
theorem execute_error {e : RunError} (h : (execute setup ss b w).result = .error e) :
    ∃ before s after calls b' w', ss = before ++ s :: after ∧
      Completes setup before b w calls b' w' ∧
      (attempt setup s b' w').error? before.length s.command.name = some e ∧
      callsOf (execute setup ss b w).events =
        calls ++ callsOf ((attempt setup s b' w').events setup.logger s) ∧
      (execute setup ss b w).world = (attempt setup s b' w').world w' := by
  simp only [execute] at h ⊢
  cases hr : runFrom setup 0 ss ⟨b, .empty, w, []⟩ with
  | mk q r =>
    rw [hr] at h
    cases r with
    | none => cases h
    | some e' =>
      cases h
      obtain ⟨before, s, after, calls, b', w', hss, hc, he, hcalls, hw⟩ :=
        completes_of_runFrom_error hr
      exact ⟨before, s, after, calls, b', w', hss, hc, by rwa [Nat.zero_add] at he,
        by simpa [callsOf] using hcalls, hw⟩

end

/-- **The check and the run agree on unregistered commands.**  A run that calls statements invalid
names one, whose issue is the first of its kind that a check finds, and it has completed all
statements before that one, each called once.  It does so whenever these complete, and never if a
check finds no such issue. -/
theorem execute_unchecked (setup : Setup) (ss : List Statement) (b : Bindings) (w : World) :
    let run := execute setup ss b w
    let first := firstUnregistered? setup.registry ss
    (∀ issues, run.result = .error (.invalid issues) → ∃ i b', first = some i ∧ issues = [i] ∧
      Completes setup (ss.take i.index) b w (callsOf run.events) b' run.world ∧
      (callsOf run.events).map Prod.fst = (ss.take i.index).map (·.command.name)) ∧
    (∀ i calls b' w', first = some i → Completes setup (ss.take i.index) b w calls b' w' →
      run.result = .error (.invalid [i])) ∧
    (first = none → ∀ issues, run.result ≠ .error (.invalid issues)) := by
  have hinvalid (issues : List Issue)
      (h : (execute setup ss b w).result = .error (.invalid issues)) :
      ∃ i b', firstUnregistered? setup.registry ss = some i ∧ issues = [i] ∧
        Completes setup (ss.take i.index) b w (callsOf (execute setup ss b w).events) b'
          (execute setup ss b w).world := by
    obtain ⟨before, s, after, calls, b', w', hss, hc, he, hcalls, hw⟩ := execute_error h
    obtain ⟨ha, hissues⟩ := Ending.error?_eq_invalid_iff.1 he
    have htake : ss.take before.length = before := by simp [hss]
    refine ⟨_, b', firstUnregistered?_eq_some_iff.2 ⟨before, s, after, hss, hc.mem_keys,
      attempt_unregistered.1 ha, rfl⟩, hissues, ?_⟩
    rw [ha] at hcalls hw
    rw [htake, hcalls, hw]
    simpa [callsOf] using hc
  refine ⟨fun issues h => ?_, fun i calls b' w' hfirst hc => ?_, fun hfirst issues h => ?_⟩
  · obtain ⟨i, b', hfirst, hissues, hc⟩ := hinvalid issues h
    exact ⟨i, b', hfirst, hissues, hc, hc.names⟩
  · obtain ⟨before, s, after, rfl, -, hk, rfl⟩ := firstUnregistered?_eq_some_iff.1 hfirst
    have htake : (before ++ s :: after).take before.length = before := by simp
    rw [htake] at hc
    exact execute_eq_error_iff.2 ⟨before, s, after, calls, b', w', rfl, hc,
      Ending.error?_eq_invalid_iff.2 ⟨attempt_unregistered.2 hk, rfl⟩⟩
  · obtain ⟨i, -, hsome, -⟩ := hinvalid issues h
    rw [hfirst] at hsome
    cases hsome

/-- A command that must be assigned, called by a bare statement, before a command that does not
exist.  The run calls the first and then finds what the check finds, but for the missing
assignment. -/
theorem execute_unchecked_bare :
    let d : Definition := ⟨fun _ _ host => ⟨.returned .null, 0, host⟩, none, [], some "text"⟩
    let setup : Setup := ⟨⟨[("get", d)], by decide⟩, .empty, none, "unchecked"⟩
    let ss : List Statement := [⟨none, "get", [], .empty⟩, ⟨none, "nope", [], .empty⟩]
    let run := execute setup ss .empty .initial
    check setup.registry ss = [⟨.missingAssignment "text", 0, "get"⟩, ⟨.unknownCommand, 1, "nope"⟩] ∧
      run.result = .error (.invalid [⟨.unknownCommand, 1, "nope"⟩]) ∧
      firstUnregistered? setup.registry ss = some ⟨.unknownCommand, 1, "nope"⟩ ∧
      (callsOf run.events).map Prod.fst = ["get"] := by
  intro d setup ss run
  have hresult : run.result = .error (.invalid [⟨.unknownCommand, 1, "nope"⟩]) := rfl
  obtain ⟨i, b', hfirst, hissues, -, hcalls⟩ := (execute_unchecked setup ss .empty .initial).1 _ hresult
  obtain rfl : i = ⟨.unknownCommand, 1, "nope"⟩ := by simpa using hissues.symm
  exact ⟨rfl, hresult, hfirst, hcalls⟩

end Runbook.Run
