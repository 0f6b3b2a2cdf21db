/-
  Layout says nothing.

  The statements of a program are made from its names, its words and their order.  A
  program that is relaid has the same ones, and it stands, so its text is read as
  the form that it is written from.

  * `statementsOf_relaid`: a form that is relaid has the same statements;
  * `parse_relaid`: **a source whose layout is replaced is read, as the same
    statements.**
-/
import Runbook.Proofs.Source.Relaid
import Runbook.Script.Parse

namespace Runbook.Script

/-- Arguments that are relaid are the same but for what stands between them. -/
theorem map_snd_relaid {arguments arguments' : List (List Char × Source.Argument)}
    (h : Source.ArgumentsRelaid arguments arguments') :
    arguments.map Prod.snd = arguments'.map Prod.snd := by
  induction h with
  | nil => rfl
  | cons hxy _ ih => rw [List.map_cons, List.map_cons, hxy.2, ih]

theorem Command.ofForm_relaid {c c' : Source.Call} (h : c.Relaid c') :
    Command.ofForm c = Command.ofForm c' := by
  rw [Command.ofForm, Command.ofForm, h.name, map_snd_relaid h.arguments]

theorem Statement.ofForm_relaid {s s' : Source.Statement} (h : s.Relaid s') :
    Statement.ofForm s = Statement.ofForm s' := by
  obtain ⟨target, call⟩ := s
  obtain ⟨target', call'⟩ := s'
  obtain ⟨htarget, hcall⟩ := h
  rw [Statement.ofForm, Statement.ofForm, Command.ofForm_relaid hcall]
  cases htarget with
  | none => rfl
  | some h => simp [h.1]

theorem statementsOf_relaid {p q : Source.Program} (h : p.Relaid q) :
    statementsOf p = statementsOf q := by
  have hs := h.statements
  unfold statementsOf
  generalize p.statements = statements, q.statements = statements' at hs
  induction hs with
  | nil => rfl
  | cons hxy _ ih =>
    rw [List.map_cons, List.map_cons, ih]
    exact congrArg (· :: _) (Statement.ofForm_relaid hxy.1)

/-- **Layout does not change meaning.**  A source that is read has a form, which shows each place
where layout may stand; and if at any of these places it is replaced by other layout, the text is
read as the same statements. -/
theorem parse_relaid {source : String} {ss : List Statement} (h : parse source = .ok ss) :
    ∃ p : Source.Program, Source.Program.ofSource source = .ok p ∧ p.text = source.toList ∧
      ∀ q, p.Relaid q → parse (String.ofList q.text) = .ok ss := by
  unfold parse at h
  cases hp : Source.Program.ofSource source with
  | error e => rw [hp] at h; cases h
  | ok p =>
    obtain ⟨ht, hs⟩ := Source.Program.ofSource_eq_ok_iff.1 hp
    rw [hp] at h
    cases h
    refine ⟨p, rfl, ht, fun q hq => ?_⟩
    have hq' : Source.Program.ofSource (String.ofList q.text) = .ok q :=
      Source.Program.ofSource_eq_ok_iff.2 ⟨by simp, hq.stands hs⟩
    rw [parse, hq', statementsOf_relaid hq]
    rfl

/-- A form in which a word is a backslash, and a comment follows a word. -/
def terse : Source.Program :=
  ⟨[], [(⟨some ("x".toList, []), [], "c".toList,
      [(" ".toList, ⟨none, .bare "\\".toList⟩), ([], ⟨none, .reference "y".toList⟩),
        ([], ⟨none, .quoted "a".toList⟩)], "//z\n".toList⟩, []),
    (⟨none, [], "d".toList, [(" ".toList, ⟨some "k".toList, .bare "/".toList⟩)], []⟩, [])]⟩

/-- The form with other layouts, at each of its places. -/
def spacious : Source.Program :=
  ⟨" //\\\n".toList, [(⟨some ("x".toList, "\t\n".toList), " \\\r\n".toList, "c".toList,
      [("\t\\\n".toList, ⟨none, .bare "\\".toList⟩),
        (" // y\n\t".toList, ⟨none, .reference "y".toList⟩),
        ("\t".toList, ⟨none, .quoted "a".toList⟩)], " ".toList⟩, "  ".toList),
    (⟨none, " ".toList, "d".toList, [("\t\r".toList, ⟨some "k".toList, .bare "/".toList⟩)],
      "\t//)\n".toList⟩, " \r\n".toList)]⟩

theorem terse_relaid : terse.Relaid spacious where
  leading := by decide
  statements := by
    refine .cons ⟨⟨.some ⟨rfl, by decide⟩, by decide, rfl, ?_, by decide⟩, by decide⟩
      (.cons ⟨⟨.none, by decide, rfl, ?_, by decide⟩, by decide⟩ .nil)
    · exact .cons ⟨by decide, rfl⟩ (.cons ⟨by decide, rfl⟩ (.cons ⟨by decide, rfl⟩ .nil))
    · exact .cons ⟨by decide, rfl⟩ .nil

theorem parse_relaid_spacious :
    parse "x:(c \\$y\"a\"//z\n)(d k:/)" = .ok (statementsOf terse) ∧ terse.Relaid spacious ∧
      parse (String.ofList spacious.text) = .ok (statementsOf terse) := by
  have hparse : parse "x:(c \\$y\"a\"//z\n)(d k:/)" = .ok (statementsOf terse) := by
    decide +kernel
  have hform : Source.Program.ofSource "x:(c \\$y\"a\"//z\n)(d k:/)" = .ok terse := by
    decide +kernel
  obtain ⟨p, hp, -, hq⟩ := parse_relaid hparse
  obtain rfl : terse = p := Except.ok.inj (hform.symm.trans hp)
  exact ⟨hparse, terse_relaid, hq spacious terse_relaid⟩

end Runbook.Script
