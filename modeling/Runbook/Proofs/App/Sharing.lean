/-
  An application and the registry that it was given.

  A `Registration` is made through the application or on the registry, of a
  definition or of an action that is described piece by piece.

  * `Agree.apply` and `Agree.after`: two sides with one registry have one registry
    after every registration, and after every history of them;
  * `find?_registered`: the last registration under a name is what is found there;
  * `shared_registry`: **an application has the registry that it was given, if that
    one held a command**;
  * `shared_registry_empty`: it does not have an empty one.
-/
import Runbook.App.Sharing
import Runbook.Proofs.Run.Check
import Runbook.Proofs.Run.Directory

namespace Runbook.Sharing

open Run (invocations)
open Script (Statement)

/-! ## Registrations -/

/-- A registration of a command, or of an action as one: through the application, or in the registry
that it was given. -/
inductive Registration where
  | register (name : String) (d : Definition)
  | registerAction (name : String) (action : Action) (description : Option String)
      (arguments : Option (List String)) (returns : Option String)
  | registerOutside (name : String) (d : Definition)
  | registerActionOutside (name : String) (action : Action) (description : Option String)
      (arguments : Option (List String)) (returns : Option String)

namespace Registration

/-- The name under which a command is registered. -/
def name : Registration → String
  | register name _ | registerAction name _ _ _ _ => name
  | registerOutside name _ | registerActionOutside name _ _ _ _ => name

/-- The definition of the command that is registered. -/
def definition : Registration → Definition
  | register _ d | registerOutside _ d => d
  | registerAction _ action description arguments returns
  | registerActionOutside _ action description arguments returns =>
    .ofAction action description arguments returns

/-- Makes a registration on its side. -/
def apply (s : Sharing) : Registration → Sharing
  | register name d => (s.register name d).1
  | registerAction name action description arguments returns =>
    (s.registerAction name action description arguments returns).1
  | registerOutside name d => (s.registerOutside name d).1
  | registerActionOutside name action description arguments returns =>
    (s.registerActionOutside name action description arguments returns).1

end Registration

/-- What a history of registrations leaves. -/
def after (s : Sharing) (history : List Registration) : Sharing :=
  history.foldl Registration.apply s

/-- The one registry on which all registrations of a history were made. -/
def registered (r : Registry) (history : List Registration) : Registry :=
  history.foldl (fun r x => r.insert x.name x.definition) r

/-- Both sides have their registry in one place. -/
structure Agree (s : Sharing) (r : Registry) : Prop where
  own : s.own = s.given
  given_lt : s.given < s.tables.length
  outside : s.outside = r

section
variable {s : Sharing} {r : Registry}

theorem Agree.app (h : Agree s r) : s.app.registry = r := by
  rw [← h.outside, Sharing.outside, ← h.own]
  rfl

theorem Agree.setTable (h : Agree s r) (r' : Registry) : Agree (s.setTable s.given r') r' where
  own := h.own
  given_lt := by simpa [Sharing.setTable] using h.given_lt
  outside := by simp [Sharing.outside, table, Sharing.setTable, h.given_lt]

theorem Agree.apply (h : Agree s r) (x : Registration) :
    Agree (x.apply s) (r.insert x.name x.definition) := by
  have hset (r' : Registry) : Agree (s.setTable s.own r') r' := h.own ▸ h.setTable r'
  cases x with
  | register | registerAction => rw [← h.app]; exact hset _
  | registerOutside | registerActionOutside => rw [← h.outside]; exact h.setTable _

theorem Agree.after (h : Agree s r) (history : List Registration) :
    Agree (s.after history) (registered r history) := by
  induction history generalizing s r with
  | nil => exact h
  | cons x history ih => exact ih (h.apply x)

end

/-! ## What is found -/

theorem find?_registered_of_ne {name : String} {history : List Registration}
    (h : ∀ y ∈ history, y.name ≠ name) (r : Registry) :
    (registered r history).find? name = r.find? name := by
  have hpairs : registered r history =
      (history.map fun x => (x.name, x.definition)).foldl (fun r e => r.insert e.1 e.2) r := by
    rw [registered, List.foldl_map]
  rw [hpairs]
  refine Table.find?_foldl_insert_of_not_mem ?_ r
  rw [List.map_map, List.mem_map]
  rintro ⟨y, hy, hname⟩
  exact h y hy hname

/-- The last registration under a name counts. -/
theorem find?_registered {x : Registration} {later : List Registration}
    (h : ∀ y ∈ later, y.name ≠ x.name) (r : Registry) (before : List Registration) :
    (registered r (before ++ x :: later)).find? x.name = some x.definition := by
  have hsplit : registered r (before ++ x :: later) =
      registered ((registered r before).insert x.name x.definition) later :=
    List.foldl_append ..
  rw [hsplit, find?_registered_of_ne h, Table.find?_insert, if_pos rfl]

/-- No statement of a registered command is refused, if what the command returns is kept. -/
theorem ne_of_mem_validate {app : App} {name : String} {d : Definition}
    (hd : app.registry.find? name = some d) {ss : List Statement}
    (hss : ∀ t ∈ ss, t.command.name = name → t.target = none → d.contract? = none)
    {issues : List Run.Issue} (h : (app.validate ss).2 = .error (.invalid issues)) :
    ∀ i ∈ issues, i.command ≠ name := by
  obtain rfl : Run.check app.registry ss = issues := by
    unfold App.validate at h
    split at h
    · cases h
    · cases h; rfl
  intro i hi hname
  obtain ⟨t, ht, hcommand, hoffends⟩ := Run.mem_check.1 hi
  rw [hname] at hcommand
  cases hp : i.problem with
  | unknownCommand =>
    rw [hp] at hoffends
    obtain ⟨hk⟩ := hoffends
    rw [← hcommand, ← Table.find?_eq_none_iff, hd] at hk
    cases hk
  | missingAssignment returns =>
    rw [hp] at hoffends
    cases hoffends with
    | unassigned he hreturns hne htarget =>
      rw [← hcommand, ← Table.find?_eq_some_iff, hd] at he
      cases he
      have hnone := hss t (List.mem_of_getElem? ht) hcommand.symm htarget
      rw [Run.contract?_eq_some_iff.2 ⟨hreturns, hne⟩] at hnone
      cases hnone

/-! ## The registry that was given -/

theorem agree_ofApp (app : App) {r : Registry} (hr : r.entries ≠ []) : Agree (ofApp app r) r := by
  have hne : r.entries.isEmpty = false := List.isEmpty_eq_false_iff.2 hr
  constructor <;> simp [ofApp, hne, Sharing.outside, table]

/-- **A registry that is given to an application is shared**, if it holds a command by then.  After
every history of registrations on either side both sides have the registry on which all of them were
made.  So a command that was registered last under its name, on whatever side, is one that the
application knows: no statement of it is refused, if what it returns is kept, and it is the
registered action that replies to every call of it. -/
theorem shared_registry (app : App) {r : Registry} (hr : r.entries ≠ [])
    (history : List Registration) :
    let s := (ofApp app r).after history
    s.app.registry = s.outside ∧ s.outside = registered r history ∧
      ∀ before x later, history = before ++ x :: later → (∀ y ∈ later, y.name ≠ x.name) →
        s.app.registry.find? x.name = some x.definition ∧
        (∀ ss, (∀ t ∈ ss, t.command.name = x.name → t.target = none →
            x.definition.contract? = none) →
          ∀ issues, (s.app.validate ss).2 = .error (.invalid issues) →
            ∀ i ∈ issues, i.command ≠ x.name) ∧
        ∀ disk ss b w, ∀ i ∈ invocations (s.app.setup disk) ss b w, i.command = x.name →
          i.reply = x.definition.action disk i.arguments i.host := by
  have hagree := (agree_ofApp app hr).after history
  have happ := hagree.app
  have houtside := hagree.outside
  refine ⟨happ.trans houtside.symm, houtside, ?_⟩
  rintro before x later rfl hlater
  have hfind : ((ofApp app r).after (before ++ x :: later)).app.registry.find? x.name =
      some x.definition := by
    rw [happ]
    exact find?_registered hlater r before
  refine ⟨hfind, fun ss hss issues h => ne_of_mem_validate hfind hss h, ?_⟩
  intro disk ss b w i hi hname
  obtain ⟨d, hd, hreply⟩ := Run.reply_of_mem_invocations hi
  obtain rfl : d = x.definition := by
    rw [hname] at hd
    exact Option.some.inj (hd.symm.trans hfind)
  exact hreply

/-- An application of the default settings. -/
def host : App := .ofSettings .defaults (some "host") none

/-- A command that returns its name, which must be kept if `returns` says so. -/
def naming (name : String) (returns : Option String) : Definition :=
  ⟨fun _ _ host => ⟨.returned (.str name), 0, host⟩, none, [], returns⟩

theorem shared_registry_get :
    let r : Registry := Table.empty.insert "get" (naming "old" none)
    let get := naming "get" (some "text")
    let s := (ofApp host r).after [.register "ping" (naming "ping" none), .registerOutside "get" get]
    let kept : List Statement := [⟨some "x", "get", [], .empty⟩, ⟨none, "ping", [], .empty⟩]
    r.entries ≠ [] ∧ s.app.registry = s.outside ∧ s.app.registry.keys = ["get", "ping"] ∧
      s.app.registry.find? "get" = some get ∧
      (∀ issues, (s.app.validate kept).2 = .error (.invalid issues) →
        ∀ i ∈ issues, i.command ≠ "get") ∧
      ∀ i ∈ invocations (s.app.setup .empty) kept .empty .initial, i.command = "get" →
        i.reply = get.action .empty i.arguments i.host := by
  intro r get s kept
  have hr : r.entries ≠ [] := by decide
  obtain ⟨hshared, -, h⟩ := shared_registry host hr
    [.register "ping" (naming "ping" none), .registerOutside "get" get]
  obtain ⟨hfind, hvalidate, hreply⟩ :=
    h [.register "ping" (naming "ping" none)] (.registerOutside "get" get) [] rfl (by simp)
  refine ⟨hr, hshared, rfl, hfind, hvalidate kept ?_, hreply .empty kept .empty .initial⟩
  intro t ht hname htarget
  simp only [kept, List.mem_cons, List.not_mem_nil, or_false] at ht
  rcases ht with rfl | rfl
  · cases htarget
  · exact absurd hname (by decide)

/-- An application that is given an empty registry does not know what is registered there. -/
theorem shared_registry_empty :
    let s := (ofApp host .empty).after [.registerOutside "ping" (naming "ping" none)]
    s.outside.keys = ["ping"] ∧ s.app.registry.keys = [] ∧
      (s.app.validate [⟨none, "ping", [], .empty⟩]).2 =
        .error (.invalid [⟨.unknownCommand, 0, "ping"⟩]) :=
  ⟨rfl, rfl, rfl⟩

end Runbook.Sharing
