/-
  What a check finds, and what it leaves to the run.

  `Offends` says why a statement must not run, without indices or messages: its
  command is not registered, or it is bare and its command returns a value.

  * `mem_check`: **a check has an issue exactly for each statement that offends**,
    and `pairwise_check`: in the order of the statements, one each;
  * `execute_ne_invalid`: a run of statements whose commands are registered never
    says that they are invalid, whatever its actions do.
-/
import Runbook.Proofs.Run.Attribution

namespace Runbook.Run

open Script (Statement)

/-- Why a statement must not run. -/
inductive Offends (registry : Registry) (s : Statement) : Problem → Prop
  | unregistered : s.command.name ∉ registry.keys → Offends registry s .unknownCommand
  | unassigned {d : Definition} {returns : String} : (s.command.name, d) ∈ registry.entries →
      d.returns = some returns → returns ≠ "" → s.target = none →
      Offends registry s (.missingAssignment returns)

variable {registry : Registry}

theorem contract?_eq_some_iff {d : Definition} {returns : String} :
    d.contract? = some returns ↔ d.returns = some returns ∧ returns ≠ "" := by
  simp [Definition.contract?, Option.filter_eq_some_iff]

theorem issueOf?_eq_some_iff {index : Nat} {s : Statement} {i : Issue} :
    issueOf? registry index s = some i ↔
      i.index = index ∧ i.command = s.command.name ∧ Offends registry s i.problem := by
  obtain ⟨problem, index', command⟩ := i
  unfold issueOf?
  constructor
  · intro h
    split at h
    · next hd =>
      cases h
      exact ⟨rfl, rfl, .unregistered (Table.find?_eq_none_iff.1 hd)⟩
    · next d hd =>
      split at h
      · next returns hr ht =>
        cases h
        obtain ⟨hr, hne⟩ := contract?_eq_some_iff.1 hr
        exact ⟨rfl, rfl, .unassigned (Table.find?_eq_some_iff.1 hd) hr hne ht⟩
      · cases h
  · rintro ⟨rfl, rfl, h⟩
    cases h with
    | unregistered hk => simp [Table.find?_eq_none_iff.2 hk]
    | unassigned hd hr hne ht =>
      simp [Table.find?_eq_some_iff.2 hd, contract?_eq_some_iff.2 ⟨hr, hne⟩, ht]

theorem mem_checkFrom {i : Issue} : ∀ {index : Nat} {ss : List Statement},
    i ∈ checkFrom registry index ss ↔
      ∃ k s, ss[k]? = some s ∧ issueOf? registry (index + k) s = some i
  | _, [] => by simp [checkFrom]
  | index, s :: ss => by
    rw [checkFrom, List.mem_append, Option.mem_toList, mem_checkFrom]
    constructor
    · rintro (h | ⟨k, t, hk, ht⟩)
      · exact ⟨0, s, rfl, h⟩
      · exact ⟨k + 1, t, hk, by rwa [Nat.add_comm k, ← Nat.add_assoc]⟩
    · rintro ⟨k, t, hk, ht⟩
      cases k with
      | zero => cases hk; exact .inl ht
      | succ k => exact .inr ⟨k, t, hk, by rwa [Nat.add_assoc, Nat.add_comm 1]⟩

theorem mem_check {ss : List Statement} {i : Issue} : i ∈ check registry ss ↔
    ∃ s, ss[i.index]? = some s ∧ i.command = s.command.name ∧ Offends registry s i.problem := by
  simp only [check, mem_checkFrom, issueOf?_eq_some_iff, Nat.zero_add]
  constructor
  · rintro ⟨k, s, hs, rfl, h⟩
    exact ⟨s, hs, h⟩
  · rintro ⟨s, hs, h⟩
    exact ⟨i.index, s, hs, rfl, h⟩

theorem pairwise_checkFrom : ∀ {index : Nat} {ss : List Statement},
    (checkFrom registry index ss).Pairwise fun i j => i.index < j.index
  | _, [] => .nil
  | index, s :: ss => by
    refine List.pairwise_append.2 ⟨?_, pairwise_checkFrom, fun i hi j hj => ?_⟩
    · cases issueOf? registry index s <;> simp
    · -- The issue of the first statement has the index that the others start after.
      obtain ⟨k, t, -, ht⟩ := mem_checkFrom.1 hj
      have hi := (issueOf?_eq_some_iff.1 (Option.mem_toList.1 hi)).1
      have hj := (issueOf?_eq_some_iff.1 ht).1
      omega

theorem pairwise_check {ss : List Statement} :
    (check registry ss).Pairwise fun i j => i.index < j.index :=
  pairwise_checkFrom

theorem check_eq_nil_iff {ss : List Statement} :
    check registry ss = [] ↔ ∀ s ∈ ss, ∀ p, ¬ Offends registry s p := by
  rw [List.eq_nil_iff_forall_not_mem]
  constructor
  · intro h s hs p hp
    obtain ⟨k, hk⟩ := List.mem_iff_getElem?.1 hs
    exact h ⟨p, k, s.command.name⟩ (mem_check.2 ⟨s, hk, rfl, hp⟩)
  · intro h i hi
    obtain ⟨s, hs, -, hp⟩ := mem_check.1 hi
    exact h s (List.mem_of_getElem? hs) i.problem hp

theorem execute_ne_invalid {setup : Setup} {ss : List Statement}
    (h : ∀ s ∈ ss, s.command.name ∈ setup.registry.keys) (b : Bindings) (w : World)
    (issues : List Issue) : (execute setup ss b w).result ≠ .error (.invalid issues) := by
  intro he
  obtain ⟨before, s, after, calls, b', w', rfl, -, hs⟩ := execute_eq_error_iff.1 he
  obtain ⟨ha, -⟩ := Ending.error?_eq_invalid_iff.1 hs
  exact attempt_unregistered.1 ha (h s (by simp))

end Runbook.Run
