/-
  The records of a run.

  A statement begins when those before it have completed, its command is found and its
  arguments have values.  A run logs what it begins, each statement before the call of
  its action, and nothing else.

  * `Shows`: what a run shows of the statements that it begins; `Shows.cons` and
    `runFrom_shows` carry it along a run;
  * `recovered?_executing`: a record holds its statement, which can be read off it;
  * `execute_records`: **the records of a run are those of the statements that it
    begins, in order, each before the call of its action, and give them back.**
-/
import Mathlib.Data.List.Basic
import Runbook.Proofs.Run.Attribution
import Runbook.Proofs.Script.RoundTrip

namespace Runbook.Run

open Script (Statement Command parse)

/-! ## Statements that begin -/

/-- A statement can begin: its command is found and its arguments have values. -/
def Ready (setup : Setup) (s : Statement) (b : Bindings) : Prop :=
  s.command.name ∈ setup.registry.keys ∧ ∃ args, s.command.resolve b = .ok args

/-- The statement in a place begins: those before it complete, and then it is ready. -/
def Begins (setup : Setup) (ss : List Statement) (b : Bindings) (w : World) (i : Nat) : Prop :=
  ∃ s calls b' w', ss[i]? = some s ∧ Completes setup (ss.take i) b w calls b' w' ∧
    Ready setup s b'

section
variable {setup : Setup} {s : Statement} {ss : List Statement} {b : Bindings} {w w' : World}

theorem not_begins_nil {i : Nat} : ¬ Begins setup [] b w i := by
  rintro ⟨s, calls, b', w', hs, -⟩
  cases hs

theorem begins_zero_iff : Begins setup (s :: ss) b w 0 ↔ Ready setup s b := by
  constructor
  · rintro ⟨t, calls, b', w', ht, hc, h⟩
    cases ht
    cases hc
    exact h
  · exact fun h => ⟨s, [], b, w, rfl, .nil b w, h⟩

/-- After a statement that returns, those behind it begin as they would on their own. -/
theorem begins_succ_iff {args : Arguments} {v : Value} {i : Nat}
    (ha : attempt setup s b w = .called args (.returned v) w') :
    Begins setup (s :: ss) b w (i + 1) ↔ Begins setup ss (assign b s.target v) w' i := by
  constructor
  · rintro ⟨t, calls, b', w'', ht, hc, h⟩
    cases hc with
    | cons ha' hc =>
      rw [ha] at ha'
      cases ha'
      exact ⟨t, _, b', w'', ht, hc, h⟩
  · rintro ⟨t, calls, b', w'', ht, hc, h⟩
    exact ⟨t, _, b', w'', ht, .cons ha hc, h⟩

/-- A statement is ready exactly if its attempt gets to the working directory. -/
theorem ready_iff (w : World) : Ready setup s b ↔
    (∃ fault, attempt setup s b w = .unreachable fault) ∨
      ∃ args o w', attempt setup s b w = .called args o w' := by
  unfold attempt Ready
  cases hd : setup.registry.find? s.command.name with
  | none => simp [Table.find?_eq_none_iff.1 hd]
  | some d =>
    have hk : s.command.name ∈ setup.registry.keys := Table.mem_keys_of_find? hd
    cases s.command.resolve b with
    | error x => simp
    | ok args => cases setup.start w.host.directory <;> simp [hk]

/-- Behind a statement that does not return none begins. -/
theorem begins_iff_of_not_returned {i : Nat}
    (ha : ∀ args v w', attempt setup s b w ≠ .called args (.returned v) w') :
    Begins setup (s :: ss) b w i ↔ i = 0 ∧ Ready setup s b := by
  cases i with
  | zero => simp [begins_zero_iff]
  | succ i =>
    refine iff_of_false ?_ (by simp)
    rintro ⟨t, calls, b', w'', -, hc, -⟩
    cases hc with
    | cons ha' _ => exact ha _ _ _ ha'

end

/-! ## What a run shows -/

/-- Events show that the first statements of a list began, each with its record before the call of
its action. -/
structure Shows (logger : String) (ss : List Statement) (n : Nat) (events : List Event) : Prop where
  records : recordsOf events = (ss.take n).map (executing logger)
  calls : ∀ before name args after, events = before ++ .invoked name args :: after →
    ∃ s, ss[(callsOf before).length]? = some s ∧ s.command.name = name ∧
      recordsOf before = (ss.take ((callsOf before).length + 1)).map (executing logger)

theorem Shows.nil (logger : String) (ss : List Statement) : Shows logger ss 0 [] :=
  ⟨rfl, fun before name args after h => by cases before <;> cases h⟩

/-- A statement that begins and is not called. -/
theorem Shows.single (logger : String) (s : Statement) (ss : List Statement) :
    Shows logger (s :: ss) 1 [.logged (executing logger s)] := by
  refine ⟨rfl, fun before name args after h => ?_⟩
  rcases before with _ | ⟨e, before⟩
  · cases h
  · cases before <;> cases h

/-- **A statement that is called, and those behind it.** -/
theorem Shows.cons {logger : String} {s : Statement} {ss : List Statement} {n : Nat}
    {events : List Event} (args : Arguments) (h : Shows logger ss n events) :
    Shows logger (s :: ss) (n + 1)
      (.logged (executing logger s) :: .invoked s.command.name args :: events) := by
  refine ⟨?_, fun before name args' after he => ?_⟩
  · have hr := h.records
    simp only [recordsOf, List.filterMap_cons, List.take_succ_cons, List.map_cons] at hr ⊢
    rw [hr]
  · rcases before with _ | ⟨e, _ | ⟨e', before⟩⟩
    · cases he
    · cases he
      exact ⟨s, rfl, rfl, rfl⟩
    · cases he
      obtain ⟨t, ht, hname, hr⟩ := h.calls _ _ _ _ rfl
      refine ⟨t, ht, hname, ?_⟩
      simp only [recordsOf, callsOf, List.filterMap_cons, List.length_cons, List.take_succ_cons,
        List.map_cons] at hr ⊢
      rw [hr]

/-- A statement that does not return is the last one that is shown, if it is ready. -/
theorem attempt_shows {setup : Setup} {s : Statement} {b : Bindings} {w : World}
    (ha : ∀ args v w', attempt setup s b w ≠ .called args (.returned v) w') (ss : List Statement) :
    ∃ n, (∀ i, i < n ↔ Begins setup (s :: ss) b w i) ∧
      Shows setup.logger (s :: ss) n ((attempt setup s b w).events setup.logger s) := by
  simp only [begins_iff_of_not_returned ha, ready_iff w]
  cases attempt setup s b w with
  | unregistered => exact ⟨0, by simp, .nil ..⟩
  | undefined x => exact ⟨0, by simp, .nil ..⟩
  | unreachable fault => exact ⟨1, by simp, .single ..⟩
  | called args o w' => exact ⟨1, by simp, .cons args (.nil ..)⟩

/-- **A run shows the statements that begin**, and no other. -/
theorem runFrom_shows {setup : Setup} : ∀ {index : Nat} {ss : List Statement} {p : Progress},
    ∃ n events, (runFrom setup index ss p).1.events = p.events ++ events ∧
      (∀ i, i < n ↔ Begins setup ss p.bindings p.world i) ∧ Shows setup.logger ss n events
  | _, [], p => ⟨0, [], by simp [runFrom], fun i => by simp [not_begins_nil], .nil ..⟩
  | index, s :: ss, p => by
    rw [runFrom_cons]
    cases he : (attempt setup s p.bindings p.world).error? index s.command.name with
    | none =>
      obtain ⟨args, v, w', ha⟩ := Ending.error?_eq_none_iff.1 he
      rw [ha]
      obtain ⟨n, events, hevents, hbegins, hshows⟩ := @runFrom_shows setup (index + 1) ss
        (p.follow setup.logger s (.called args (.returned v) w'))
      refine ⟨n + 1, _, ?_, fun i => ?_, hshows.cons args⟩
      · exact hevents.trans (by simp [Progress.follow])
      · cases i with
        | zero => simpa using begins_zero_iff.2 ((ready_iff p.world).2 (.inr ⟨args, _, w', ha⟩))
        | succ i =>
          rw [begins_succ_iff ha, Nat.succ_lt_succ_iff]
          exact hbegins i
    | some e =>
      have hreturns : ∀ args v w',
          attempt setup s p.bindings p.world ≠ .called args (.returned v) w' := by
        intro args v w' ha
        rw [ha] at he
        cases he
      obtain ⟨n, hbegins, hshows⟩ := attempt_shows hreturns ss
      exact ⟨n, _, rfl, hbegins, hshows⟩

/-! ## What a record tells -/

/-- The one command that a text holds, unless its result is assigned. -/
def commandOf? (text : List Char) : Option Command :=
  match parse (String.ofList text) with
  | .ok [⟨none, c⟩] => some c
  | _ => none

/-- The statement that a record tells: its command is read from the text behind `Executing: `, or
behind the first ` = ` of an assignment, which comes after the variable. -/
def recovered? (r : Log.Record) : Option Statement :=
  match r.message.toList.dropPrefix? "Executing: ".toList with
  | some text => (commandOf? text).map (⟨none, ·⟩)
  | none => do
    let line ← r.message.toList.dropPrefix? "Executing assignment: ".toList
    let (name, text) ← line.dropInfix? " = ".toList
    (commandOf? text).map (⟨some (String.ofList name), ·⟩)

theorem commandOf?_text {c : Command} (hc : c.WellFormed) : commandOf? c.text.toList = some c := by
  have hs : (⟨none, c⟩ : Statement).WellFormed := ⟨fun _ h => (nomatch h), hc⟩
  have hread := @Script.parse_intercalate_text [⟨none, c⟩] (by simpa using hs)
  have htext : " ".intercalate ([⟨none, c⟩].map Statement.text) = c.text := by
    simp [Statement.text, Statement.form, Source.Statement.text, Command.text]
  rw [htext] at hread
  simp [commandOf?, hread]

/-- The first ` = ` behind a name without spaces comes right after it. -/
theorem dropInfix?_equals {name : List Char} (hn : ' ' ∉ name) (text : List Char) :
    (name ++ " = ".toList ++ text).dropInfix? " = ".toList = some (name, text) := by
  refine List.dropInfix?_eq_some_iff.2 ⟨⟨_, rfl, beq_self_eq_true _⟩, ?_⟩
  intro before sep after h hsep
  rw [eq_of_beq hsep] at h
  by_contra hlt
  have hspace : (name ++ " = ".toList ++ text)[before.length]? = some ' ' := by
    rw [h]
    simp
  rw [List.append_assoc, List.getElem?_append_left (by omega)] at hspace
  exact hn (List.mem_of_getElem? hspace)

/-- **A record tells its statement.** -/
theorem recovered?_executing (logger : String) {s : Statement} (hs : s.WellFormed) :
    recovered? (executing logger s) = some s := by
  obtain ⟨target, c⟩ := s
  have hc := commandOf?_text hs.command
  cases target with
  | none =>
    have hmessage : (executing logger ⟨none, c⟩).message.toList =
        "Executing: ".toList ++ c.text.toList := by
      simp [executing, toString]
    rw [recovered?, hmessage, List.dropPrefix?_append_of_beq _ (beq_self_eq_true _)]
    simp [hc]
  | some name =>
    have hname : ' ' ∉ name.toList := fun h => absurd ((hs.target name rfl).2 ' ' h) (by decide)
    have hmessage : (executing logger ⟨some name, c⟩).message.toList =
        "Executing assignment: ".toList ++ (name.toList ++ " = ".toList ++ c.text.toList) := by
      simp [executing, toString]
    have hbare (line : List Char) :
        ("Executing assignment: ".toList ++ line).dropPrefix? "Executing: ".toList = none := by
      simp [List.dropPrefix?]
    rw [recovered?, hmessage, hbare, List.dropPrefix?_append_of_beq _ (beq_self_eq_true _)]
    simp only [Option.bind_eq_bind, Option.bind_some, dropInfix?_equals hname, hc,
      String.ofList_toList, Option.map_some]

/-- **The records of a run are faithful.**  They are those of the statements that begin, in order;
at each call they are those of the statements up to the one that is called, which is the one in the
place of the call; and each of them tells its statement. -/
theorem execute_records {setup : Setup} {ss : List Statement}
    (h : ∀ s ∈ ss, ∃ source ts, parse source = .ok ts ∧ s ∈ ts) (b : Bindings) (w : World) :
    let run := execute setup ss b w
    ∃ n, (∀ i, i < n ↔ Begins setup ss b w i) ∧
      recordsOf run.events = (ss.take n).map (executing setup.logger) ∧
      (recordsOf run.events).map recovered? = (ss.take n).map some ∧
      ∀ before name args after, run.events = before ++ .invoked name args :: after →
        let i := (callsOf before).length
        ∃ s, ss[i]? = some s ∧ s.command.name = name ∧
          recordsOf before = (ss.take (i + 1)).map (executing setup.logger) := by
  intro run
  obtain ⟨n, events, hevents, hbegins, hshows⟩ :=
    @runFrom_shows setup 0 ss ⟨b, .empty, w, []⟩
  have hrun : run.events = events := by
    refine Eq.trans ?_ hevents
    simp only [run, execute]
    split <;> simp_all
  rw [hrun]
  refine ⟨n, hbegins, hshows.records, ?_, hshows.calls⟩
  rw [hshows.records, List.map_map]
  refine List.map_congr_left fun s hs => ?_
  obtain ⟨source, ts, hparse, hmem⟩ := h s (List.mem_of_mem_take hs)
  exact recovered?_executing _ (Script.wellFormed_of_parse hparse s hmem)

/-- A host with a command that returns its first argument. -/
def echoing : Setup :=
  let echo : Action := fun _ args host => ⟨.returned (.str (args.positional.headD "")), 0, host⟩
  ⟨⟨[("echo", ⟨echo, none, [], none⟩)], by decide⟩, ⟨[], .empty⟩, none, "echoing"⟩

/-- An assignment of a text that looks like one, a call that gets it, and one of no command. -/
def quoting : String := "x: (echo \"y = \\\"(echo)\\\" // \")\n(echo $x\"\") (none)"

/-- The statements that it holds. -/
def quoted : List Statement :=
  [⟨some "x", "echo", [.literal "y = \"(echo)\" // "], .empty⟩,
    ⟨none, "echo", [.reference "x", .literal ""], .empty⟩, ⟨none, "none", [], .empty⟩]

theorem execute_records_quoting : parse quoting = .ok quoted ∧
    let records := recordsOf (execute echoing quoted .empty .initial).events
    records.map (·.message) =
        ["Executing assignment: x = (echo \"y = \\\"(echo)\\\" // \")",
          "Executing: (echo $x \"\")"] ∧
      records.map recovered? = (quoted.take 2).map some := by
  have hparse : parse quoting = .ok quoted := by decide +kernel
  have hmessages : (recordsOf (execute echoing quoted .empty .initial).events).map (·.message) =
      ["Executing assignment: x = (echo \"y = \\\"(echo)\\\" // \")",
        "Executing: (echo $x \"\")"] := by
    decide +kernel
  obtain ⟨n, -, hrecords, hrecovered, -⟩ :=
    @execute_records echoing quoted (fun s hs => ⟨_, _, hparse, hs⟩) .empty .initial
  have hn : n = 2 := by
    have hlength := congrArg List.length hmessages
    rw [List.length_map, hrecords] at hlength
    simp [quoted] at hlength
    omega
  exact ⟨hparse, hmessages, hn ▸ hrecovered⟩

end Runbook.Run
