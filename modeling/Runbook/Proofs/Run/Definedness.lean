/-
  Which variables a run finds undefined.

  A variable is defined when a statement's turn comes if it had a value before the
  run or a statement before that one assigns it; which value it has plays no part.

  * `Completes.mem_keys_iff`: what has a value after statements that complete;
  * `execute_undefined_iff`: **a run finds a variable undefined exactly where the
    text of the program says so.**
-/
import Runbook.Proofs.Run.Attribution
import Runbook.Proofs.Script.Arguments

namespace Runbook.Run

open Script (Statement Command FirstUnknown lasting)

/-- The variables that have a value after statements, given those that had one before. -/
def Defined (b : Bindings) (ss : List Statement) (x : String) : Prop :=
  x ∈ b.keys ∨ ∃ s ∈ ss, s.target = some x

theorem mem_keys_assign {b : Bindings} {target : Option String} {v : Value} {x : String} :
    x ∈ (assign b target v).keys ↔ x ∈ b.keys ∨ target = some x := by
  cases target with
  | none => simp [assign]
  | some name =>
    rw [assign, Table.keys_insert]
    by_cases h : name ∈ b.keys
    · simp only [h, if_true, Option.some.injEq]
      exact ⟨.inl, fun hx => hx.elim id fun e => e ▸ h⟩
    · simp [h, eq_comm]

theorem Completes.mem_keys_iff {setup : Setup} {ss : List Statement} {b b' : Bindings}
    {w w' : World} {calls : List (String × Arguments)} (h : Completes setup ss b w calls b' w')
    {x : String} : x ∈ b'.keys ↔ Defined b ss x := by
  induction h with
  | nil => simp [Defined]
  | cons _ _ ih =>
    simp only [ih, Defined, mem_keys_assign, List.mem_cons, exists_eq_or_imp, or_assoc]

/-- An attempt stops at a variable if that is the first reference of a registered command that has
no value. -/
theorem attempt_undefined {setup : Setup} {s : Statement} {b : Bindings} {w : World} {x : String} :
    attempt setup s b w = .undefined x ↔ s.command.name ∈ setup.registry.keys ∧
      FirstUnknown (· ∈ b.keys) s.command.references x := by
  have hresolve : s.command.resolve b = .error x ↔
      FirstUnknown (· ∈ b.keys) s.command.references x := by
    rw [← Script.undefined?_eq_some_iff, Command.resolve]
    cases s.command.undefined? b <;> simp
  rw [← hresolve]
  unfold attempt
  cases hd : setup.registry.find? s.command.name with
  | none => simp [Table.find?_eq_none_iff.1 hd]
  | some d =>
    have hk : s.command.name ∈ setup.registry.keys := Table.mem_keys_of_find? hd
    cases s.command.resolve b with
    | error y => simp [hk]
    | ok args => cases setup.start w.host.directory <;> simp

/-- After statements that complete an attempt stops at a variable if that is the first reference that
the statements do not define. -/
theorem Completes.attempt_undefined {setup : Setup} {ss : List Statement} {b b' : Bindings}
    {w w' : World} {calls : List (String × Arguments)} (h : Completes setup ss b w calls b' w')
    {s : Statement} {x : String} :
    attempt setup s b' w' = .undefined x ↔ s.command.name ∈ setup.registry.keys ∧
      FirstUnknown (Defined b ss) s.command.references x := by
  have hkeys : (· ∈ b'.keys) = Defined b ss := funext fun _ => propext h.mem_keys_iff
  rw [← hkeys]
  exact Run.attempt_undefined

/-- **Where a variable is undefined.**  A run ends with a variable that is undefined in a statement
exactly if all statements before it complete, its command is registered, and the variable is the
first of the command's references that neither had a value before the run nor is assigned by a
statement before this one.  The references of a written command are those of its positional
arguments and then of its named ones, without those whose key a later one has. -/
theorem execute_undefined_iff (setup : Setup) (ss : List Statement) (b : Bindings) (w : World) :
    (∀ x k c, (execute setup ss b w).result = .error (.undefinedVariable x k c) ↔
      ∃ s, ss[k]? = some s ∧ s.command.name = c ∧ c ∈ setup.registry.keys ∧
        (∃ calls b' w', Completes setup (ss.take k) b w calls b' w') ∧
        FirstUnknown (Defined b (ss.take k)) s.command.references x) ∧
    ∀ call : Source.Call, (Command.ofForm call).references =
      ((call.arguments.map Prod.snd).filter (·.key = none) ++
        (lasting (call.arguments.map Prod.snd)).filter (·.key ≠ none)).filterMap
          fun a => (Script.Argument.ofWord a.word).reference? := by
  refine ⟨fun x k c => ⟨fun h => ?_, ?_⟩, Script.references_ofForm⟩
  · obtain ⟨before, s, after, calls, b', w', rfl, hc, he⟩ := execute_eq_error_iff.1 h
    obtain ⟨ha, rfl, rfl⟩ := Ending.error?_eq_undefined_iff.1 he
    obtain ⟨hk, hx⟩ := hc.attempt_undefined.1 ha
    exact ⟨s, by simp, rfl, hk, ⟨calls, b', w', by simpa using hc⟩, by simpa using hx⟩
  · rintro ⟨s, hs, rfl, hk, ⟨calls, b', w', hc⟩, hx⟩
    obtain ⟨hlt, hsk⟩ := List.getElem?_eq_some_iff.1 hs
    have hss : ss = ss.take k ++ s :: ss.drop (k + 1) := by simp [← hsk]
    have hlen : (ss.take k).length = k := List.length_take_of_le (Nat.le_of_lt hlt)
    refine execute_eq_error_iff.2 ⟨ss.take k, s, _, calls, b', w', hss, hc, ?_⟩
    exact Ending.error?_eq_undefined_iff.2 ⟨hc.attempt_undefined.2 ⟨hk, hx⟩, hlen, rfl⟩

end Runbook.Run
