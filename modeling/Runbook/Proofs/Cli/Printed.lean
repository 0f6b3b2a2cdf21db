/-
  The printed document of a program.

  Documents without doubles are read back as they are, so what is printed of a program
  tells its document, and the document tells the statements: a literal is a string and a
  reference an object, an assignment has one more field than a bare command, and the
  fields of named arguments keep their order.

  * `write_inj`: documents without doubles are written differently;
  * `argumentJson_inj`, `statementJson_inj`, `programJson_inj`: the document of each part
    tells the part;
  * `printed_of_asksFor`: what is printed when the statements of a source are asked for;
  * `printed_eq_iff`: **two programs are printed alike iff they have the same statements.**
-/
import Runbook.Proofs.Cli.Sources
import Runbook.Proofs.Json.Reading

namespace Runbook

open Script (Argument Command Statement)

/-! ## Documents -/

namespace Json

/-- Documents that are read back as they are are written differently. -/
theorem write_inj {style : Style} (hs : style.Readable) {j j' : Json} (h : j.readBack = j)
    (h' : j'.readBack = j') : j.write style = j'.write style ↔ j = j' := by
  refine ⟨fun heq => ?_, fun heq => congrArg _ heq⟩
  have hread := congrArg read? heq
  rw [read?_write hs, read?_write hs, h, h'] at hread
  exact Option.some.inj hread

end Json

namespace Cli

theorem readBack_argumentJson (a : Argument) : (argumentJson a).readBack = argumentJson a := by
  cases a <;> rfl

theorem readBack_commandJson (c : Command) : (commandJson c).readBack = commandJson c := by
  have hpositional : Json.readBackItems (c.positional.map argumentJson) =
      c.positional.map argumentJson := by
    rw [Json.readBackItems_eq_map, List.map_map]
    exact List.map_congr_left fun a _ => readBack_argumentJson a
  have hnamed : Json.readBackFields (c.named.entries.map fun e => (e.1, argumentJson e.2)) =
      c.named.entries.map fun e => (e.1, argumentJson e.2) := by
    rw [Json.readBackFields_eq_map, List.map_map]
    exact List.map_congr_left fun e _ => Prod.ext rfl (readBack_argumentJson e.2)
  have hcommand : commandJson c = .obj [("name", .str c.name),
      ("positional_args", .arr (c.positional.map argumentJson)),
      ("named_args", .obj (c.named.entries.map fun e => (e.1, argumentJson e.2)))] := rfl
  simp only [hcommand, Json.readBack, Json.readBackFields, hpositional, hnamed]

theorem readBack_statementJson (s : Statement) : (statementJson s).readBack = statementJson s := by
  unfold statementJson
  split <;> simp only [Json.readBack, Json.readBackFields, readBack_commandJson]

theorem readBack_programJson (ss : List Statement) :
    (programJson ss).readBack = programJson ss := by
  rw [programJson, Json.readBack, Json.readBackItems_eq_map, List.map_map]
  exact congrArg _ (List.map_congr_left fun s _ => readBack_statementJson s)

/-! ## What documents tell -/

theorem argumentJson_inj {a b : Argument} (h : argumentJson a = argumentJson b) : a = b := by
  cases a <;> cases b <;> simp_all [argumentJson]

theorem commandJson_inj {c d : Command} (h : commandJson c = commandJson d) : c = d := by
  obtain ⟨name, positional, named⟩ := c
  obtain ⟨name', positional', named'⟩ := d
  simp only [commandJson, Json.obj.injEq, List.cons.injEq, Prod.mk.injEq, Json.str.injEq,
    Json.arr.injEq, true_and, and_true] at h
  obtain ⟨rfl, hpositional, hnamed⟩ := h
  have hargument : Function.Injective argumentJson := fun _ _ => argumentJson_inj
  have hfield : Function.Injective fun e : String × Argument => (e.1, argumentJson e.2) := by
    rintro ⟨k, a⟩ ⟨l, b⟩ he
    obtain ⟨hk, ha⟩ := Prod.mk.inj he
    exact Prod.ext hk (argumentJson_inj ha)
  have hentries : named = named' := Table.ext_entries (List.map_injective_iff.2 hfield hnamed)
  rw [List.map_injective_iff.2 hargument hpositional, hentries]

/-- A statement is told by its document: a target shows in the number of fields. -/
theorem statementJson_inj {s t : Statement} (h : statementJson s = statementJson t) : s = t := by
  obtain ⟨target, c⟩ := s
  obtain ⟨target', d⟩ := t
  cases target with
  | none =>
    cases target' with
    | none =>
      simp only [statementJson, Json.obj.injEq, List.cons.injEq, Prod.mk.injEq, true_and,
        and_true] at h
      rw [commandJson_inj h]
    | some y => simp [statementJson] at h
  | some x =>
    cases target' with
    | none => simp [statementJson] at h
    | some y =>
      simp only [statementJson, Json.obj.injEq, List.cons.injEq, Prod.mk.injEq, Json.str.injEq,
        true_and, and_true] at h
      rw [h.1, commandJson_inj h.2]

theorem programJson_inj {ss ss' : List Statement} (h : programJson ss = programJson ss') :
    ss = ss' :=
  List.map_injective_iff.2 (fun _ _ => statementJson_inj) (Json.arr.inj h)

/-! ## What is printed -/

/-- Arguments of the command line ask for the statements of a source, which are these. -/
def AsksFor (s : Surroundings) (arguments : List String) (ss : List Statement) : Prop :=
  ∃ r c, readRequest arguments = .ok r ∧ r.subcommand = .parse ∧ contextOf s r = .ok c ∧
    c.Accepts ss

/-- The document of the statements is printed, with a line end. -/
theorem printed_of_asksFor {s : Surroundings} {arguments : List String} {ss : List Statement}
    (h : AsksFor s arguments ss) : ∃ result, program s arguments = .ok result ∧
      result.output.world.host.printed = (programJson ss).write .document ++ "\n" := by
  obtain ⟨r, c, hr, hsub, hc, haccepts⟩ := h
  have hparse : c.request.subcommand = .parse := by rw [request_of_contextOf hc, hsub]
  have hprogram : program s arguments = .ok (c.parse .initial) := by
    simp only [program, hr, Except.map, answer_eq, hc, Context.perform, hparse]
  exact ⟨_, hprogram, printed_of_accepts haccepts⟩

/-- **The printed document determines the program.**  Of two sources that are programs the same is
printed iff they have the same statements, named arguments in the same order.  What is printed is
read back as the document of the statements; and the documents of two arguments, or of two
statements, are never written alike unless these are the same, so that a literal is never
taken for a reference or for another literal, nor an assignment for a bare command. -/
theorem printed_eq_iff {s s' : Surroundings} {arguments arguments' : List String}
    {ss ss' : List Statement} (h : AsksFor s arguments ss) (h' : AsksFor s' arguments' ss') :
    ∃ result result', program s arguments = .ok result ∧ program s' arguments' = .ok result' ∧
      (result.output.world.host.printed = result'.output.world.host.printed ↔ ss = ss') ∧
      (∃ text, result.output.world.host.printed = text ++ "\n" ∧
        Json.read? text = some (programJson ss)) ∧
      (∀ a b : Argument, (argumentJson a).write .document = (argumentJson b).write .document ↔
        a = b) ∧
      ∀ t u : Statement, (statementJson t).write .document = (statementJson u).write .document ↔
        t = u := by
  obtain ⟨result, hresult, hprinted⟩ := printed_of_asksFor h
  obtain ⟨result', hresult', hprinted'⟩ := printed_of_asksFor h'
  have hread : Json.read? ((programJson ss).write .document) = some (programJson ss) := by
    rw [Json.read?_write Json.readable_document, readBack_programJson]
  refine ⟨result, result', hresult, hresult', ?_, ⟨_, hprinted, hread⟩, fun a b => ?_, fun t u => ?_⟩
  · rw [hprinted, hprinted', String.append_left_inj, Json.write_inj Json.readable_document
      (readBack_programJson ss) (readBack_programJson ss')]
    exact ⟨programJson_inj, congrArg _⟩
  · rw [Json.write_inj Json.readable_document (readBack_argumentJson a) (readBack_argumentJson b)]
    exact ⟨argumentJson_inj, congrArg _⟩
  · rw [Json.write_inj Json.readable_document (readBack_statementJson t) (readBack_statementJson u)]
    exact ⟨statementJson_inj, congrArg _⟩

theorem asksFor_desk {source : String} {ss : List Statement}
    (hr : readRequest ["parse", "-c", source] = .ok ⟨.parse, none, some source, none⟩)
    (hne : source ≠ "") (hp : Script.parse source = .ok ss) :
    AsksFor desk ["parse", "-c", source] ss := by
  let r : Request := ⟨.parse, none, none, none⟩
  obtain ⟨c, hc, -⟩ := contextOf_desk (r.given none (some source))
  have hsource : c.source = .ok source :=
    (source_of_contextOf hc).trans (readSource_command (r := r) hne)
  exact ⟨_, c, hr, rfl, hc, source, hsource, hp⟩

/-- A reference and a literal that is spelled like it. -/
theorem printed_eq_iff_reference : ∃ result result',
    program desk ["parse", "-c", "(c $x)"] = .ok result ∧
    program desk ["parse", "-c", "(c \"$x\")"] = .ok result' ∧
    result.output.world.host.printed ≠ result'.output.world.host.printed := by
  have h : AsksFor desk ["parse", "-c", "(c $x)"] [⟨none, "c", [.reference "x"], .empty⟩] :=
    asksFor_desk (by decide +kernel) (by decide) (by decide +kernel)
  have h' : AsksFor desk ["parse", "-c", "(c \"$x\")"] [⟨none, "c", [.literal "$x"], .empty⟩] :=
    asksFor_desk (by decide +kernel) (by decide) (by decide +kernel)
  obtain ⟨result, result', hresult, hresult', hiff, -⟩ := printed_eq_iff h h'
  exact ⟨result, result', hresult, hresult', fun heq => absurd (hiff.1 heq) (by decide)⟩

end Cli

end Runbook
