/-
  Where the values of variables come from.

  The value of a variable in front of a statement is what the last statement before
  it that assigns the variable returned, or what the variable had before the run if
  there is none (`Reaching`).  Nothing else counts: no other statement, and no
  result that is not kept.

  * `Completes.find?_iff`: after statements that complete the bindings hold the values
    that reach their end;
  * `Completes.keys_eq`: they keep the variables that had a value before in front and
    then the others, in the order in which they are first assigned;
  * `execute_dataflow`: **what every call receives and what a run leaves behind.**
-/
import Mathlib.Data.List.Forall2
import Runbook.Proofs.Run.Definedness

namespace Runbook.Run

open Script (Statement Command Argument)

/-! ## Values that reach a statement -/

section
variable (setup : Setup) (ss : List Statement) (b : Bindings) (w : World)

/-- The statement in a place is called, after those before it completed, and returns a value. -/
def Returns (i : Nat) (v : Value) : Prop :=
  ∃ s calls b' w' args w'', ss[i]? = some s ∧ Completes setup (ss.take i) b w calls b' w' ∧
    attempt setup s b' w' = .called args (.returned v) w''

/-- A variable has a value in front of the statement in a place. -/
inductive Reaching (i : Nat) (x : String) (v : Value) : Prop
  /-- The last statement before that assigns the variable returned the value. -/
  | assigned {j : Nat} {s : Statement} : j < i → ss[j]? = some s → s.target = some x →
      Returns setup ss b w j v →
      (∀ k t, j < k → k < i → ss[k]? = some t → t.target ≠ some x) → Reaching i x v
  /-- No statement before assigns the variable, which had the value before the run. -/
  | initial : (∀ k t, k < i → ss[k]? = some t → t.target ≠ some x) → b.find? x = some v →
      Reaching i x v

end

variable {setup : Setup} {ss : List Statement} {b b' : Bindings} {w w' : World}
  {calls : List (String × Arguments)}

theorem reaching_zero {x : String} {v : Value} :
    Reaching setup ss b w 0 x v ↔ b.find? x = some v := by
  constructor
  · rintro (⟨hj, -⟩ | ⟨-, h⟩)
    · exact absurd hj (Nat.not_lt_zero _)
    · exact h
  · exact .initial fun k t hk => absurd hk (Nat.not_lt_zero _)

/-- What reaches past a statement that assigns the variable is what the statement returns. -/
theorem reaching_succ_of_eq {i : Nat} {s : Statement} {x : String} {v : Value}
    (hs : ss[i]? = some s) (hx : s.target = some x) :
    Reaching setup ss b w (i + 1) x v ↔ Returns setup ss b w i v := by
  constructor
  · rintro (⟨hj, -, -, hr, hlast⟩ | ⟨hnone, -⟩)
    · rcases Nat.lt_succ_iff_lt_or_eq.1 hj with hj | rfl
      · exact absurd hx (hlast i s hj (Nat.lt_succ_self i) hs)
      · exact hr
    · exact absurd hx (hnone i s (Nat.lt_succ_self i) hs)
  · exact fun hr => .assigned (Nat.lt_succ_self i) hs hx hr fun k t hik hki => by omega

/-- What reaches past a statement that does not assign the variable is what reaches it. -/
theorem reaching_succ_of_ne {i : Nat} {s : Statement} {x : String} {v : Value}
    (hs : ss[i]? = some s) (hx : s.target ≠ some x) :
    Reaching setup ss b w (i + 1) x v ↔ Reaching setup ss b w i x v := by
  -- The statement adds nothing that assigns the variable to those after some place.
  have hlast {P : Nat → Prop} (h : ∀ k t, P k → k < i → ss[k]? = some t → t.target ≠ some x) :
      ∀ k t, P k → k < i + 1 → ss[k]? = some t → t.target ≠ some x := by
    intro k t hp hk ht
    rcases Nat.lt_succ_iff_lt_or_eq.1 hk with hk | rfl
    · exact h k t hp hk ht
    · rw [hs] at ht; cases ht; exact hx
  constructor
  · rintro (⟨hj, hsj, hxj, hr, h⟩ | ⟨h, hb⟩)
    · rcases Nat.lt_succ_iff_lt_or_eq.1 hj with hj | rfl
      · exact .assigned hj hsj hxj hr fun k t hjk hk => h k t hjk (Nat.lt_succ_of_lt hk)
      · rw [hs] at hsj; cases hsj; exact absurd hxj hx
    · exact .initial (fun k t hk => h k t (Nat.lt_succ_of_lt hk)) hb
  · rintro (⟨hj, hsj, hxj, hr, h⟩ | ⟨h, hb⟩)
    · exact .assigned (Nat.lt_succ_of_lt hj) hsj hxj hr (hlast h)
    · exact .initial (fun k t => hlast (P := fun _ => True) (fun k t _ => h k t) k t trivial) hb

theorem returns_iff {i : Nat} {s : Statement} {args : Arguments} {u v : Value} {w'' : World}
    (hs : ss[i]? = some s) (hc : Completes setup (ss.take i) b w calls b' w')
    (ha : attempt setup s b' w' = .called args (.returned u) w'') :
    Returns setup ss b w i v ↔ v = u := by
  constructor
  · rintro ⟨t, calls', b₁, w₁, args', w₂, ht, hc', ha'⟩
    obtain ⟨-, rfl, rfl⟩ := hc.unique hc'
    rw [hs] at ht
    cases ht
    rw [ha] at ha'
    cases ha'
    rfl
  · rintro rfl
    exact ⟨s, calls, b', w', args, w'', hs, hc, ha⟩

/-! ## The bindings of a run -/

theorem find?_assign {target : Option String} {v : Value} {x : String} :
    (assign b target v).find? x = if target = some x then some v else b.find? x := by
  cases target with
  | none => simp [assign]
  | some name => simp [assign, Table.find?_insert, eq_comm]

theorem Completes.find?_iff {i : Nat} (hi : i ≤ ss.length)
    (hc : Completes setup (ss.take i) b w calls b' w') {x : String} {v : Value} :
    b'.find? x = some v ↔ Reaching setup ss b w i x v := by
  induction i generalizing calls b' w' v with
  | zero =>
    cases hc
    exact reaching_zero.symm
  | succ i ih =>
    have hs : ss[i]? = some ss[i] := List.getElem?_eq_getElem hi
    rw [List.take_succ_eq_append_getElem hi] at hc
    obtain ⟨calls₁, b₁, w₁, args, u, hc₁, ha, rfl⟩ := hc.exists_of_concat
    rw [find?_assign]
    by_cases hx : ss[i].target = some x
    · rw [if_pos hx, reaching_succ_of_eq hs hx, returns_iff hs hc₁ ha, Option.some.injEq, eq_comm]
    · rw [if_neg hx, reaching_succ_of_ne hs hx]
      exact ih (Nat.le_of_succ_le hi) hc₁

theorem Completes.keys_eq (hc : Completes setup ss b w calls b' w') :
    b'.keys = b.keys ++ ((ss.filterMap (·.target)).filter (· ∉ b.keys)).eraseDups := by
  induction hc with
  | nil => simp
  | @cons s ss b b' w w₁ w' args v calls _ _ ih =>
    rw [ih]
    cases ht : s.target with
    | none =>
      rw [List.filterMap_cons_none ht]
      rfl
    | some name =>
      rw [assign, Table.keys_insert]
      by_cases hk : name ∈ b.keys
      · simp [hk, ht]
      · -- The variable is a key from here on, so its later assignments add nothing.
        have hcomm : (ss.filterMap (·.target)).filter (· ∉ b.keys ++ [name]) =
            ((ss.filterMap (·.target)).filter (· ∉ b.keys)).filter fun y => !y == name := by
          rw [List.filter_filter]
          refine List.filter_congr fun y _ => ?_
          by_cases hy : y = name <;> simp [hy]
        simp only [hk, if_false, hcomm, List.filterMap_cons, ht, List.append_assoc]
        simp [hk, List.eraseDups_cons]

/-! ## Arguments -/

/-- The text that an argument passes, given the values of variables: a literal passes itself, and a
reference the text of its variable's value. -/
inductive Passes (value : String → Value → Prop) : Argument → String → Prop
  | literal (text : String) : Passes value (.literal text) text
  | reference {name : String} {v : Value} :
      value name v → Passes value (.reference name) v.stringify

/-- What a call receives: the text of each argument in its place, positional or named. -/
structure Receives (value : String → Value → Prop) (c : Command) (args : Arguments) : Prop where
  positional : List.Forall₂ (Passes value) c.positional args.positional
  named : List.Forall₂ (fun e f => e.1 = f.1 ∧ Passes value e.2 f.2) c.named.entries
    args.named.entries

theorem passes_resolved {a : Argument} (h : a.undefined? b = none) :
    Passes (fun x v => b.find? x = some v) a (a.resolved b) := by
  cases a with
  | literal text => exact .literal text
  | reference name =>
    cases hv : b.find? name with
    | none => simp [Argument.undefined?, Table.contains, hv] at h
    | some v => simpa [Argument.resolved, hv] using Passes.reference hv

/-- A command that resolves receives the texts of the values in the bindings. -/
theorem receives_of_resolve {c : Command} {args : Arguments} (h : c.resolve b = .ok args) :
    Receives (fun x v => b.find? x = some v) c args := by
  unfold Command.resolve at h
  split at h
  · cases h
  · next hd =>
    cases h
    have hnone : ∀ a ∈ c.positional ++ c.named.values, a.undefined? b = none :=
      List.findSome?_eq_none_iff.1 hd
    refine ⟨?_, ?_⟩
    · rw [List.forall₂_map_right_iff, List.forall₂_same]
      exact fun a ha => passes_resolved (hnone a (List.mem_append_left _ ha))
    · rw [Table.map, List.forall₂_map_right_iff, List.forall₂_same]
      exact fun e he => ⟨rfl, passes_resolved
        (hnone e.2 (List.mem_append_right _ (List.mem_map_of_mem he)))⟩

/-- **The flow of values.**  Every call of a run receives the arguments of the statement in its
place, literals as they stand and references as the texts of the values that reach the statement.  A
run that succeeds leaves the values that reach its end, under the variables that had a value before
it and those that it assigns, in this order. -/
theorem execute_dataflow (setup : Setup) (ss : List Statement) (b : Bindings) (w : World) :
    let run := execute setup ss b w
    (∀ i name args, (callsOf run.events)[i]? = some (name, args) → ∃ s, ss[i]? = some s ∧
      name = s.command.name ∧ Receives (Reaching setup ss b w i) s.command args) ∧
    ∀ summary, run.result = .ok summary →
      (∀ x v, summary.bindings.find? x = some v ↔ Reaching setup ss b w ss.length x v) ∧
      summary.bindings.keys =
        b.keys ++ ((ss.filterMap (·.target)).filter (· ∉ b.keys)).eraseDups := by
  refine ⟨fun i name args hi => ?_, fun summary hsummary => ?_⟩
  · obtain ⟨s, before, b', w', o, w'', hs, rfl, hc, ha⟩ := exists_attempt_of_call hi
    obtain ⟨-, -, -, hargs, -⟩ := attempt_called.1 ha
    have hvalue : (fun x v => b'.find? x = some v) = Reaching setup ss b w i := by
      funext x v
      exact propext (hc.find?_iff (Nat.le_of_lt (List.getElem?_eq_some_iff.1 hs).1))
    exact ⟨s, hs, rfl, hvalue ▸ receives_of_resolve hargs⟩
  · obtain ⟨calls, hc⟩ := completes_of_execute hsummary
    have hend : Completes setup (ss.take ss.length) b w calls summary.bindings
        (execute setup ss b w).world := by rwa [List.take_length]
    exact ⟨fun x v => hend.find?_iff (Nat.le_refl _), hc.keys_eq⟩

/-- A command that returns its positional arguments in a row. -/
def joining : Setup :=
  let join : Action := fun _ args host => ⟨.returned (.str (String.join args.positional)), 0, host⟩
  ⟨⟨[("join", ⟨join, none, [], some "text"⟩)], by decide⟩, ⟨[], .empty⟩, none, "joining"⟩

/-- Two assignments to one variable, the second of which uses it, with a bare call between. -/
def reassigning : List Statement :=
  [⟨some "x", "join", [.literal "a"], .empty⟩, ⟨none, "join", [.literal "b"], .empty⟩,
    ⟨some "x", "join", [.reference "x", .reference "y"], .empty⟩]

theorem execute_dataflow_reassigning :
    let b : Bindings := ⟨[("y", .int 1)], by decide⟩
    let run := execute joining reassigning b .initial
    (callsOf run.events)[2]? = some ("join", ⟨["a", "1"], .empty⟩) ∧
      Receives (Reaching joining reassigning b .initial 2)
        ⟨"join", [.reference "x", .reference "y"], .empty⟩ ⟨["a", "1"], .empty⟩ ∧
      ∃ summary, run.result = .ok summary ∧ summary.bindings.keys = ["y", "x"] ∧
        Reaching joining reassigning b .initial 3 "x" (.str "a1") := by
  intro b run
  obtain ⟨hcalls, hend⟩ := execute_dataflow joining reassigning b .initial
  have hcall : (callsOf run.events)[2]? = some ("join", ⟨["a", "1"], .empty⟩) := by
    decide +kernel
  obtain ⟨_, hs, -, hreceives⟩ := hcalls 2 "join" _ hcall
  cases hs
  let summary : Summary :=
    ⟨⟨[("y", .int 1), ("x", .str "a1")], by decide⟩, ⟨[("join", elapsed 0 0)], by decide⟩,
      elapsed 0 0⟩
  have hresult : run.result = .ok summary := rfl
  obtain ⟨hvalues, -⟩ := hend summary hresult
  exact ⟨hcall, hreceives, summary, hresult, rfl, (hvalues "x" (.str "a1")).1 rfl⟩

end Runbook.Run
