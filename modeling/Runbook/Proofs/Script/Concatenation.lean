/-
  Programs one after another.

  A program that is read ends in a statement or in layout.  Unless that is a comment,
  what follows the program is read as if it stood alone; and a comment ends with its
  line.

  * `Program.read_append`: reading goes on after a program as from the beginning;
  * `Program.Stands.exists_cut`: a program may be cut off in the layout at its end;
  * `parse_append`: **the statements of two programs on lines of their own are those
    of the first and then those of the second**, and an error in the second is moved
    down by the lines of the first.
-/
import Runbook.Proofs.Source.Failing
import Runbook.Proofs.Source.Relaid
import Runbook.Script.Parse

namespace Runbook

namespace Source

/-- The layout at the end of statements, or the one before them if there are none. -/
def trailing (leading : List Char) : List (Statement × List Char) → List Char
  | [] => leading
  | (_, layout) :: statements => trailing layout statements

/-- The layout at the end of a program. -/
def Program.trailing (p : Program) : List Char := Source.trailing p.leading p.statements

theorem StatementsStand.layout_trailing : ∀ {statements : List (Statement × List Char)}
    {leading : List Char}, Layout leading → StatementsStand statements →
    Layout (trailing leading statements)
  | [], _, hl, _ => hl
  | (_, layout) :: statements, _, _, ⟨_, hlayout, hs⟩ =>
    @layout_trailing statements layout hlayout.1 hs

theorem Program.Stands.layout_trailing {p : Program} (hp : p.Stands) : Layout p.trailing :=
  StatementsStand.layout_trailing hp.1.1 hp.2

/-- The longest layout before a statement is so whatever follows the statement. -/
theorem Statement.Stands.longest {s : Statement} {layout rest : List Char} (hs : s.Stands rest)
    (hl : Longest Layout layout (s.text ++ rest)) (rest' : List Char) :
    Longest Layout layout (s.text ++ rest') := by
  have hclosed : Closed layout := by
    obtain ⟨c, cs, hc⟩ := List.exists_cons_of_ne_nil s.text_ne_nil
    rw [hc] at hl
    exact hl.closed
  exact hclosed.longest (Statement.longest_nil hs rest')

/-- Reading goes on after statements with what is left after the layout at their end. -/
theorem readStatements_append {t u : List Char} :
    ∀ {statements : List (Statement × List Char)} {leading : List Char},
    Longest Layout leading (statementsText statements) → StatementsStand statements →
    (splitLayout (trailing leading statements ++ t)).2 = u →
    (readStatements (splitLayout (leading ++ (statementsText statements ++ t))).2).map
        (List.map Prod.fst) =
      (readStatements u).map fun more => statements.map Prod.fst ++ more.map Prod.fst
  | [], leading, _, _, hu => by
    -- one layout is taken from the end of the statements and from what comes after them
    rw [← hu]
    rfl
  | (s, layout) :: statements, leading, hl, ⟨hs, hlayout, hrest⟩, hu => by
    have ih := readStatements_append hlayout hrest hu
    rw [statementsText_cons] at hl
    have hsplit := longest_layout_iff.1 (hs.longest hl (layout ++ (statementsText statements ++ t)))
    have hread := Statement.read_text (hs.any (layout ++ (statementsText statements ++ t)))
    rw [statementsText_cons, List.append_assoc, List.append_assoc, hsplit,
      readStatements_next (by simp [Statement.text_ne_nil]), hread]
    dsimp only
    revert ih
    generalize readStatements (splitLayout (layout ++ (statementsText statements ++ t))).2 = x
    generalize readStatements u = y
    cases x <;> cases y <;> simp [Except.map]

/-- Statements can be cut off in the layout at their end. -/
theorem StatementsStand.exists_cut {a b : List Char} (ha : Layout a) :
    ∀ {statements : List (Statement × List Char)} {leading : List Char},
    Longest Layout leading (statementsText statements) → StatementsStand statements →
    trailing leading statements = a ++ b →
    ∃ leading' statements', Longest Layout leading' (statementsText statements') ∧
      StatementsStand statements' ∧
      leading ++ statementsText statements = leading' ++ statementsText statements' ++ b
  | [], leading, _, _, h =>
    ⟨a, [], ha.longest_end, trivial, by simpa [trailing, statementsText] using h⟩
  | (s, layout) :: statements, leading, hl, ⟨hs, hlayout, hrest⟩, h => by
    obtain ⟨layout', statements', hlayout', hrest', htext⟩ := exists_cut ha hlayout hrest h
    rw [statementsText_cons] at hl
    refine ⟨leading, (s, layout') :: statements', ?_, ⟨hs.any _, hlayout', hrest'⟩, ?_⟩
    · rw [statementsText_cons]
      exact hs.longest hl _
    · rw [statementsText_cons, statementsText_cons, htext]
      simp

/-- **Reading goes on after a program as from the beginning**, if nothing is left open. -/
theorem Program.read_append {p : Program} (hp : p.Stands) {sep : List Char}
    (hsep : Closed (p.trailing ++ sep)) (cs : List Char) :
    (Program.read (p.text ++ sep ++ cs)).map (fun q => q.statements.map Prod.fst) =
      (Program.read cs).map fun q => p.statements.map Prod.fst ++ q.statements.map Prod.fst := by
  have hu : (splitLayout (p.trailing ++ (sep ++ cs))).2 = (splitLayout cs).2 := by
    rw [← List.append_assoc, hsep.splitLayout_append]
  have h := readStatements_append hp.1 hp.2 hu
  unfold Program.read
  rw [Program.text, List.append_assoc, List.append_assoc]
  revert h
  generalize readStatements (splitLayout (p.leading ++
    (statementsText p.statements ++ (sep ++ cs)))).2 = x
  generalize readStatements (splitLayout cs).2 = y
  cases x <;> cases y <;> simp [Except.map]

/-- A program can be cut off in the layout at its end. -/
theorem Program.Stands.exists_cut {p : Program} (hp : p.Stands) {a b : List Char} (ha : Layout a)
    (h : p.trailing = a ++ b) : ∃ q : Program, q.Stands ∧ p.text = q.text ++ b := by
  obtain ⟨leading, statements, hl, hs, htext⟩ := StatementsStand.exists_cut ha hp.1 hp.2 h
  exact ⟨⟨leading, statements⟩, ⟨hl, hs⟩, htext⟩

end Source

namespace Script

open Source (Closed Layout Location)

/-- A source ends in a comment if a comment that no line feed ends begins after a source that is
read. -/
def EndsInComment (source : String) : Prop :=
  ∃ before text, source = before ++ "//" ++ text ∧ '\n' ∉ text.toList ∧ ∃ ss, parse before = .ok ss

theorem parse_eq_ok_iff {source : String} {ss : List Statement} : parse source = .ok ss ↔
    ∃ p : Source.Program, p.text = source.toList ∧ p.Stands ∧ statementsOf p = ss := by
  unfold parse
  constructor
  · intro h
    cases hp : Source.Program.ofSource source with
    | error e => rw [hp] at h; cases h
    | ok p =>
      obtain ⟨ht, hs⟩ := Source.Program.ofSource_eq_ok_iff.1 hp
      rw [hp] at h
      cases h
      exact ⟨p, ht, hs, rfl⟩
  · rintro ⟨p, ht, hs, rfl⟩
    rw [Source.Program.ofSource_eq_ok_iff.2 ⟨ht, hs⟩]
    rfl

/-- The layout at the end of a source that does not end in a comment is closed. -/
theorem closed_trailing {source : String} {p : Source.Program} (ht : p.text = source.toList)
    (hp : p.Stands) (h : ¬ EndsInComment source) : Closed p.trailing := by
  refine hp.layout_trailing.closed_or_inComment.1.resolve_right ?_
  rintro ⟨s, text, htrailing, hs, hn⟩
  obtain ⟨q, hq, htext⟩ := hp.exists_cut hs.layout htrailing
  refine h ⟨String.ofList q.text, String.ofList text, ?_, by simpa using hn, statementsOf q,
    parse_eq_ok_iff.2 ⟨q, by simp, hq, rfl⟩⟩
  rw [← String.toList_inj, ← ht, htext]
  simp

/-- After a program with nothing left open another one is read as it stands, up to the place of an
error. -/
theorem parse_append_of_closed {p : Source.Program} {source sep : String}
    (ht : p.text = source.toList) (hp : p.Stands) (hc : Closed (p.trailing ++ sep.toList))
    (more : String) : parse (source ++ sep ++ more) =
      match Source.Program.read more.toList with
      | .ok q => .ok (statementsOf p ++ statementsOf q)
      | .error f => .error (f.locate (source ++ sep ++ more).toList) := by
  have h := Source.Program.read_append hp hc more.toList
  have htext : (source ++ sep ++ more).toList = p.text ++ sep.toList ++ more.toList := by simp [ht]
  rw [parse, Source.Program.ofSource]
  simp only [htext]
  revert h
  generalize p.text ++ sep.toList ++ more.toList = cs
  cases Source.Program.read cs with
  | error f =>
    cases Source.Program.read more.toList with
    | error f' => rintro ⟨⟩; rfl
    | ok q => intro h; cases h
  | ok r =>
    cases Source.Program.read more.toList with
    | error f' => intro h; cases h
    | ok q =>
      intro h
      have hstatements := congrArg (List.map Statement.ofForm) (Except.ok.inj h)
      simp only [List.map_append, List.map_map] at hstatements
      exact congrArg Except.ok hstatements

theorem parse_eq_read (source : String) : parse source =
    match Source.Program.read source.toList with
    | .ok q => .ok (statementsOf q)
    | .error f => .error (f.locate source.toList) := by
  rw [parse, Source.Program.ofSource]
  cases Source.Program.read source.toList <;> rfl

/-- **Programs concatenate.**  After a source that is read and a line feed, another source is read as
if it stood alone, and an error in it moves down by the lines before it.  After a source that does
not end in a comment a space, or nothing, does as well. -/
theorem parse_append {source : String} {ss : List Statement} (h : parse source = .ok ss)
    (more : String) :
    (match parse more with
      | .ok ts => parse (source ++ "\n" ++ more) = .ok (ss ++ ts)
      | .error e => parse (source ++ "\n" ++ more) = .error { e with location :=
          ⟨e.location.line + (source.toList.count '\n' + 1), e.location.column⟩ }) ∧
    (¬ EndsInComment source → ∀ sep ∈ [" ", ""],
      match parse more with
      | .ok ts => parse (source ++ sep ++ more) = .ok (ss ++ ts)
      | .error e => ∃ place, parse (source ++ sep ++ more) = .error { e with location := place }) := by
  obtain ⟨p, ht, hp, rfl⟩ := parse_eq_ok_iff.1 h
  constructor
  · have hc : Closed (p.trailing ++ "\n".toList) := hp.layout_trailing.closed_newline
    have hread := parse_append_of_closed ht hp hc more
    rw [parse_eq_read more]
    cases hm : Source.Program.read more.toList with
    | ok q =>
      rw [hm] at hread
      exact hread
    | error f =>
      have htext : (source ++ "\n" ++ more).toList = source.toList ++ '\n' :: more.toList := by simp
      rw [hm, htext] at hread
      dsimp only at hread
      rw [Source.Failure.locate_newline (Source.Program.suffix_of_read hm)] at hread
      exact hread
  · intro hcomment sep hsep
    have hc : Closed (p.trailing ++ sep.toList) := by
      refine (closed_trailing ht hp hcomment).append ?_
      rcases List.mem_pair.1 hsep with rfl | rfl
      · exact .blank rfl .nil
      · exact .nil
    have hread := parse_append_of_closed ht hp hc more
    rw [parse_eq_read more]
    cases hm : Source.Program.read more.toList with
    | ok q =>
      rw [hm] at hread
      exact hread
    | error f =>
      rw [hm] at hread
      exact ⟨_, hread⟩

/-- An assignment with layout around it, the last line of which is empty. -/
def padded : String := "\t x: (a \"b\\\"\")\r \\\n"

/-- The statement that it holds. -/
def assigned : Statement := ⟨some "x", "a", [.literal "b\""], .empty⟩

/-- A statement that refers to the variable. -/
def referring : Statement := ⟨none, "b", [.reference "x"], .empty⟩

theorem parse_append_padded :
    (parse padded = .ok [assigned] ∧ parse "\n (b" = .error ⟨.closeParen, none, 2, 4⟩ ∧
      parse (padded ++ "\n" ++ "\n (b") = .error ⟨.closeParen, none, 4, 4⟩) ∧
    ¬ EndsInComment padded ∧ parse "(b $x)" = .ok [referring] ∧
      parse (padded ++ "" ++ "(b $x)") = .ok [assigned, referring] := by
  have hpadded : parse padded = .ok [assigned] := by decide +kernel
  have hopen : parse "\n (b" = .error ⟨.closeParen, none, 2, 4⟩ := by decide +kernel
  have hreferring : parse "(b $x)" = .ok [referring] := by decide +kernel
  have hcomment : ¬ EndsInComment padded := by
    rintro ⟨before, text, h, -, -⟩
    have hslash : '/' ∈ padded.toList := by rw [h]; simp
    exact absurd hslash (by decide)
  have hline := (parse_append hpadded "\n (b").1
  rw [hopen] at hline
  have hnothing := (parse_append hpadded "(b $x)").2 hcomment "" (by decide)
  rw [hreferring] at hnothing
  exact ⟨⟨hpadded, hopen, hline⟩, hcomment, hreferring, hnothing⟩

end Script

end Runbook
