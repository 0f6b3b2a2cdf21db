/-
  The arguments of a command: which written ones count, and what they refer to.

  A named argument counts if no later one has its key.  The references of a command
  are those of its positional arguments and then of its named ones.

  * `entries_namedOf`: **the named arguments of a command are the written ones that
    count, in their order**;
  * `references_ofForm`: so a reference that a later argument replaced is none of
    the command's;
  * `undefined?_eq_some_iff`: what is undefined in a command is the first of its
    references that has no value;
  * `resolve_congr`: the values of its references are all that a command asks for.
-/
import Mathlib.Data.List.Find
import Runbook.Proofs.Table
import Runbook.Script.Parse
import Runbook.Script.Resolve

namespace Runbook.Script

/-! ## Written arguments that count -/

/-- The keys of written arguments. -/
def keysOf (arguments : List Source.Argument) : List (List Char) := arguments.filterMap (·.key)

/-- Written arguments without the named ones whose key a later one has. -/
def lasting : List Source.Argument → List Source.Argument
  | [] => []
  | a :: arguments =>
    if ∃ key ∈ a.key, key ∈ keysOf arguments then lasting arguments else a :: lasting arguments

/-- The key and the value of a named argument. -/
def keyed? (a : Source.Argument) : Option (String × Argument) :=
  a.key.map fun key => (String.ofList key, .ofWord a.word)

/-- Taking written arguments into a table drops the entries whose keys they have, and adds at the
end those of them that count. -/
theorem entries_foldl_addNamed : ∀ (arguments : List Source.Argument) (t : Table String Argument),
    (arguments.foldl addNamed t).entries =
      t.entries.filter (fun e => e.1.toList ∉ keysOf arguments) ++
        (lasting arguments).filterMap keyed?
  | [], t => by
    rw [List.filter_eq_self.2 fun e _ => by simp [keysOf]]
    simp [lasting]
  | a :: arguments, t => by
    rw [List.foldl_cons, entries_foldl_addNamed arguments, lasting]
    cases hk : a.key with
    | none => simp [addNamed, keyed?, keysOf, hk]
    | some key =>
      have hcons : keysOf (a :: arguments) = key :: keysOf arguments := by simp [keysOf, hk]
      -- Taking the argument drops its key's entry, and the later ones drop those of their keys.
      have hdrop : (t.entries.filter fun e => e.1 ≠ String.ofList key).filter
          (fun e => e.1.toList ∉ keysOf arguments) =
          t.entries.filter fun e => e.1.toList ∉ keysOf (a :: arguments) := by
        rw [List.filter_filter]
        refine List.filter_congr fun e _ => ?_
        have he : e.1 = String.ofList key ↔ e.1.toList = key :=
          ⟨fun h => by simp [h], fun h => by simp [← h]⟩
        simp [hcons, he, Bool.and_comm]
      simp only [addNamed, hk, Table.entries_push, List.filter_append, hdrop, List.append_assoc]
      by_cases hm : key ∈ keysOf arguments
      · simp [hm]
      · simp [hm, keyed?, hk]

theorem entries_namedOf (arguments : List Source.Argument) :
    (namedOf arguments).entries = (lasting arguments).filterMap keyed? := by
  rw [namedOf, entries_foldl_addNamed]
  simp [Table.empty]

theorem values_namedOf (arguments : List Source.Argument) : (namedOf arguments).values =
    ((lasting arguments).filter (·.key ≠ none)).map fun a => .ofWord a.word := by
  rw [Table.values, entries_namedOf]
  induction lasting arguments with
  | nil => rfl
  | cons a arguments ih => cases h : a.key <;> simpa [keyed?, h] using ih

theorem positionalOf_eq (arguments : List Source.Argument) :
    positionalOf arguments = (arguments.filter (·.key = none)).map fun a => .ofWord a.word := by
  unfold positionalOf
  induction arguments with
  | nil => rfl
  | cons a arguments ih => cases h : a.key <;> simpa [h] using ih

/-! ## References -/

/-- The name that an argument refers to. -/
def Argument.reference? : Argument → Option String
  | literal _ => none
  | reference name => some name

/-- The names that a command refers to, in the order in which they are looked up. -/
def Command.references (c : Command) : List String :=
  (c.positional ++ c.named.values).filterMap Argument.reference?

/-- A written command refers to what its positional arguments refer to and then to what the named
ones do that count. -/
theorem references_ofForm (c : Source.Call) :
    (Command.ofForm c).references =
      ((c.arguments.map Prod.snd).filter (·.key = none) ++
        (lasting (c.arguments.map Prod.snd)).filter (·.key ≠ none)).filterMap
          fun a => (Argument.ofWord a.word).reference? := by
  simp only [Command.references, Command.ofForm, positionalOf_eq, values_namedOf,
    ← List.map_append, List.filterMap_map, Function.comp_def]

/-- A name is the first of some names that is not known. -/
def FirstUnknown (known : String → Prop) (names : List String) (x : String) : Prop :=
  ∃ before after, names = before ++ x :: after ∧ (∀ y ∈ before, known y) ∧ ¬ known x

theorem undefined?_eq_find? (b : Bindings) (c : Command) :
    c.undefined? b = c.references.find? fun x => !b.contains x := by
  unfold Command.undefined? Command.references
  induction c.positional ++ c.named.values with
  | nil => rfl
  | cons a arguments ih =>
    cases a with
    | literal value => exact ih
    | reference name =>
      have hcons : (.reference name :: arguments).filterMap Argument.reference? =
          name :: arguments.filterMap Argument.reference? := rfl
      rw [List.findSome?_cons, hcons, List.find?_cons]
      cases h : b.contains name with
      | true => simpa [Argument.undefined?, h] using ih
      | false => simp [Argument.undefined?, h]

theorem undefined?_eq_some_iff {b : Bindings} {c : Command} {x : String} :
    c.undefined? b = some x ↔ FirstUnknown (· ∈ b.keys) c.references x := by
  rw [undefined?_eq_find?, List.find?_eq_some_iff_append]
  constructor
  · rintro ⟨hx, before, after, h, hbefore⟩
    refine ⟨before, after, h, fun y hy => ?_, fun hk => ?_⟩
    · exact Table.contains_iff.1 (by simpa using hbefore y hy)
    · rw [Table.contains_iff.2 hk] at hx
      cases hx
  · rintro ⟨before, after, h, hbefore, hx⟩
    refine ⟨by simpa using fun hk => hx (Table.contains_iff.1 hk), before, after, h,
      fun y hy => ?_⟩
    simpa using Table.contains_iff.2 (hbefore y hy)

/-! ## Bindings that agree -/

section
variable {b b' : Bindings} {c : Command}

theorem resolved_congr (h : ∀ x ∈ c.references, b.find? x = b'.find? x) {a : Argument}
    (ha : a ∈ c.positional ++ c.named.values) : a.resolved b = a.resolved b' := by
  cases a with
  | literal value => rfl
  | reference name =>
    have hname : name ∈ c.references := List.mem_filterMap.2 ⟨_, ha, rfl⟩
    simp only [Argument.resolved, h name hname]

/-- A command resolves alike where the variables that it refers to have the same values. -/
theorem resolve_congr (h : ∀ x ∈ c.references, b.find? x = b'.find? x) :
    c.resolve b = c.resolve b' := by
  have hundefined : c.undefined? b = c.undefined? b' := by
    rw [undefined?_eq_find?, undefined?_eq_find?]
    refine List.find?_congr fun x hx => ?_
    rw [Table.contains, Table.contains, h x hx]
  have hpositional : c.positional.map (·.resolved b) = c.positional.map (·.resolved b') :=
    List.map_congr_left fun a ha => resolved_congr h (List.mem_append_left _ ha)
  have hnamed : (c.named.map fun _ a => a.resolved b) = c.named.map fun _ a => a.resolved b' := by
    refine Table.ext_entries (List.map_congr_left fun e he => ?_)
    have hvalue : e.2 ∈ c.named.values := List.mem_map_of_mem he
    exact congrArg _ (resolved_congr h (List.mem_append_right _ hvalue))
  unfold Command.resolve
  rw [hundefined, hpositional, hnamed]

end

end Runbook.Script
