/-
  Writing statements and reading them back.

  The plain form of a well-formed statement stands wherever its text is written, so
  it is what the parser finds there; and a statement is the statement of its form.

  * `Statement.ofForm_form`: the form of a statement keeps all that it says;
  * `Argument.stands_word`, `Command.stands_form`, `Statement.stands_form`: the
    forms of what is well-formed stand before a blank or a closing parenthesis;
  * `parse_inverse`: **on well-formed statements parsing is the inverse of writing,
    and all that is parsed is well-formed.**
-/
import Runbook.Proofs.Script.WellFormed

namespace Runbook.Script

open Source (Longest Layout Run isBlank isNameChar isCommandChar isBareChar ArgumentsStand
  StatementsStand argumentsText statementsText isBlank_eq_false_of_isBareChar longest_run_iff
  longest_nil longest_nil_of_ne longest_nil_name longest_nil_end longest_space run_isCommandChar)

/-! ## Statements of forms -/

theorem Argument.ofWord_word (a : Argument) : Argument.ofWord a.word = a := by
  cases a with
  | literal value =>
    simp only [Argument.word, wordFor]
    split <;> simp [Argument.ofWord, unescape_escape]
  | reference name => simp [Argument.ofWord, Argument.word]

theorem positionalOf_arguments (c : Command) : positionalOf c.arguments = c.positional := by
  rw [positionalOf, Command.arguments, List.filterMap_append, List.filterMap_map, List.filterMap_map]
  show c.positional.filterMap (fun a => some (.ofWord a.word)) ++
    c.named.entries.filterMap (fun _ => none) = c.positional
  simp [Argument.ofWord_word]

theorem namedOf_arguments (c : Command) : namedOf c.arguments = c.named := by
  have hpos : ∀ (l : List Argument) (t : Table String Argument),
      l.foldl (fun t a => addNamed t ⟨none, a.word⟩) t = t := by
    intro l t
    induction l with
    | nil => rfl
    | cons a l ih => exact ih
  have hnamed : c.named.entries.foldl (fun t e => t.push e.1 e.2) .empty = c.named :=
    Table.ext_entries (Table.entries_foldl_push _ .empty c.named.nodup)
  rw [namedOf, Command.arguments, List.foldl_append, List.foldl_map, List.foldl_map, hpos]
  simpa only [addNamed, Argument.ofWord_word, String.ofList_toList] using hnamed

theorem Command.ofForm_form (c : Command) : Command.ofForm c.form = c := by
  have h : c.form.arguments.map Prod.snd = c.arguments := by
    simp [Command.form, Function.comp_def]
  simp only [Command.ofForm, h, positionalOf_arguments, namedOf_arguments]
  simp [Command.form]

/-- The form of a statement keeps all that it says. -/
theorem Statement.ofForm_form (s : Statement) : Statement.ofForm s.form = s := by
  obtain ⟨target, command⟩ := s
  cases target <;> simp [Statement.ofForm, Statement.form, Command.ofForm_form]

/-! ## Words and arguments -/

/-- What follows an argument in a plain form: a space or the closing parenthesis. -/
def Ends (rest : List Char) : Prop := rest.head? = some ' ' ∨ rest.head? = some ')'

theorem Ends.head_eq {rest : List Char} (h : Ends rest) {c : Char} (hc : c ∈ rest.head?) :
    c = ' ' ∨ c = ')' := by
  rcases h with h | h <;> rw [h] at hc <;> cases hc
  · exact Or.inl rfl
  · exact Or.inr rfl

theorem longest_run_of_ends {p : Char → Bool} (hs : p ' ' = false) (hp : p ')' = false)
    {text rest : List Char} (ht : Run p text) (h : Ends rest) : Longest (Run p) text rest := by
  refine longest_run_iff.2 ⟨ht, fun c hc => ?_⟩
  rcases h.head_eq hc with rfl | rfl
  · exact hs
  · exact hp

theorem canStandBare_iff {s : List Char} : canStandBare s = true ↔
    Run isBareChar s ∧ s.head? ≠ some '"' ∧ ∀ cs, s ≠ '/' :: '/' :: cs := by
  have hquote : ['"'].isPrefixOf s = false ↔ s.head? ≠ some '"' := by
    cases s with
    | nil => simp
    | cons c cs => simp [List.isPrefixOf, eq_comm (a := c)]
  have hcomment : ['/', '/'].isPrefixOf s = false ↔ ∀ cs, s ≠ '/' :: '/' :: cs := by
    rcases s with _ | ⟨c, _ | ⟨d, ds⟩⟩
    · simp
    · simp [List.isPrefixOf]
    · simp [List.isPrefixOf, eq_comm (a := c), eq_comm (a := d)]
  simp only [canStandBare, Bool.and_eq_true, Bool.not_eq_true', hquote, hcomment, Run,
    List.isEmpty_eq_false_iff, List.all_eq_true]
  tauto

/-- The word for a text stands wherever an argument may end. -/
theorem stands_wordFor (s : List Char) {rest : List Char} (h : Ends rest) :
    (wordFor s).Stands rest := by
  unfold wordFor
  split
  · next hs =>
    obtain ⟨hrun, hquote, -⟩ := canStandBare_iff.1 hs
    exact ⟨longest_run_of_ends rfl rfl hrun h, hquote⟩
  · exact Text.body_of_splitDelimited (splitDelimited_escape s [])

theorem Argument.stands_word {a : Argument} (ha : a.WellFormed) {rest : List Char} (h : Ends rest) :
    a.word.Stands rest := by
  cases a with
  | literal value => exact stands_wordFor value.toList h
  | reference name => exact longest_run_of_ends (p := isNameChar) rfl rfl ha h

/-- No layout begins at the word for a text. -/
theorem longest_nil_wordFor (s : List Char) {rest : List Char} (h : Ends rest) :
    Longest Layout [] ((wordFor s).text ++ rest) := by
  unfold wordFor
  split
  · next hs =>
    obtain ⟨⟨hne, hbare⟩, -, hcomment⟩ := canStandBare_iff.1 hs
    obtain ⟨c, cs, rfl⟩ := List.exists_cons_of_ne_nil hne
    have hc : isBlank c = false := isBlank_eq_false_of_isBareChar (hbare c (by simp))
    -- a backslash or a slash begins layout only with the character after it
    cases cs with
    | nil =>
      refine longest_nil hc (fun _ d hd hb => ?_) fun _ hd => ?_
      · rcases h.head_eq hd with rfl | rfl
        · rfl
        · cases hb
      · rcases h.head_eq hd with e | e <;> cases e
    | cons d ds =>
      have hd : isBlank d = false := isBlank_eq_false_of_isBareChar (hbare d (by simp))
      refine longest_nil hc (fun _ e he hb => ?_) fun hc he => ?_
      · cases he
        rw [hd] at hb
        cases hb
      · cases he
        exact hcomment ds (by rw [hc])
  · exact longest_nil_of_ne rfl (by decide) (by decide) _

theorem Argument.longest_nil_word (a : Argument) {rest : List Char} (h : Ends rest) :
    Longest Layout [] (a.word.text ++ rest) := by
  cases a with
  | literal value => exact longest_nil_wordFor value.toList h
  | reference name => exact longest_nil_of_ne rfl (by decide) (by decide) _

/-- An argument that stands wherever one may end, and at which no layout begins. -/
def Plain (a : Source.Argument) : Prop :=
  ∀ rest, Ends rest → a.Stands rest ∧ Longest Layout [] (a.text ++ rest)

theorem plain_positional {a : Argument} (ha : a.WellFormed) : Plain ⟨none, a.word⟩ := by
  refine fun rest h => ⟨⟨Argument.stands_word ha h, fun hc => ?_⟩, a.longest_nil_word h⟩
  rcases h.head_eq hc with e | e <;> cases e

theorem plain_named {key : List Char} {a : Argument} (hk : Run isNameChar key)
    (ha : a.WellFormed) : Plain ⟨some key, a.word⟩ := by
  refine fun rest h => ⟨⟨Argument.stands_word ha h, hk⟩, ?_⟩
  simp only [Source.Argument.text, List.append_assoc]
  exact longest_nil_name (run_isCommandChar hk) _

/-! ## Commands -/

/-- Arguments after one space each. -/
theorem ends_argumentsText (arguments : List Source.Argument) (rest : List Char) :
    Ends (argumentsText (arguments.map ([' '], ·)) ++ ')' :: rest) := by
  cases arguments with
  | nil => exact Or.inr rfl
  | cons a arguments => exact Or.inl rfl

theorem argumentsStand_of_plain (rest : List Char) : ∀ {arguments : List Source.Argument},
    (∀ a ∈ arguments, Plain a) → ArgumentsStand (')' :: rest) (arguments.map ([' '], ·))
  | [], _ => trivial
  | a :: arguments, h => by
    obtain ⟨ha, hl⟩ := h a (by simp) _ (ends_argumentsText arguments rest)
    exact ⟨longest_space hl, ha, argumentsStand_of_plain rest fun b hb => h b (by simp [hb])⟩

theorem plain_arguments {c : Command} (hc : c.WellFormed) : ∀ a ∈ c.arguments, Plain a := by
  intro a ha
  rcases List.mem_append.1 ha with ha | ha
  · obtain ⟨b, hb, rfl⟩ := List.mem_map.1 ha
    exact plain_positional (hc.positional b hb)
  · obtain ⟨e, he, rfl⟩ := List.mem_map.1 ha
    obtain ⟨hk, hv⟩ := hc.named e he
    exact plain_named hk hv

/-- The plain form of a well-formed command stands before any text. -/
theorem Command.stands_form {c : Command} (hc : c.WellFormed) (rest : List Char) :
    c.form.Stands rest where
  opening := longest_nil_name hc.name _
  name := longest_run_of_ends rfl rfl hc.name (ends_argumentsText c.arguments rest)
  arguments := argumentsStand_of_plain rest (plain_arguments hc)
  closing := longest_nil_of_ne rfl (by decide) (by decide) _

/-! ## Statements -/

theorem Statement.stands_form {s : Statement} (hs : s.WellFormed) (rest : List Char) :
    s.form.Stands rest := by
  obtain ⟨target, command⟩ := s
  refine ⟨Command.stands_form hs.command rest, ?_⟩
  cases target with
  | none => trivial
  | some name =>
    exact ⟨hs.target name rfl, longest_nil_of_ne rfl (by decide) (by decide) _⟩

/-- No layout begins at a statement. -/
theorem Statement.longest_nil_form {s : Statement} (hs : s.WellFormed) (rest : List Char) :
    Longest Layout [] (s.form.text ++ rest) := by
  obtain ⟨target, command⟩ := s
  cases target with
  | none => exact longest_nil_of_ne rfl (by decide) (by decide) _
  | some name =>
    simp only [Statement.form, Source.Statement.text, Option.map_some, List.append_assoc]
    exact longest_nil_name (run_isCommandChar (hs.target name rfl)) _

/-- Written statements with one space between them. -/
def spaced : List Source.Statement → List (Source.Statement × List Char)
  | [] => []
  | [s] => [(s, [])]
  | s :: t :: statements => (s, [' ']) :: spaced (t :: statements)

theorem map_fst_spaced : ∀ statements : List Source.Statement,
    (spaced statements).map Prod.fst = statements
  | [] => rfl
  | [_] => rfl
  | s :: t :: statements => by rw [spaced, List.map_cons, map_fst_spaced (t :: statements)]

theorem statementsText_spaced : ∀ statements : List Source.Statement,
    statementsText (spaced statements) = [' '].intercalate (statements.map Source.Statement.text)
  | [] => rfl
  | [s] => by simp [spaced, statementsText]
  | s :: t :: statements => by
    rw [spaced, Source.statementsText_cons, statementsText_spaced (t :: statements)]
    simp [List.intercalate_cons_cons]

theorem longest_nil_spaced {ss : List Statement} (h : ∀ s ∈ ss, s.WellFormed) :
    Longest Layout [] (statementsText (spaced (ss.map Statement.form))) := by
  rcases ss with _ | ⟨s, _ | ⟨t, ss⟩⟩
  · exact longest_nil_end
  · rw [List.map_singleton, spaced, Source.statementsText_cons]
    exact Statement.longest_nil_form (h s (by simp)) _
  · rw [List.map_cons, List.map_cons, spaced, Source.statementsText_cons]
    exact Statement.longest_nil_form (h s (by simp)) _

theorem statementsStand_spaced : ∀ {ss : List Statement}, (∀ s ∈ ss, s.WellFormed) →
    StatementsStand (spaced (ss.map Statement.form))
  | [], _ => trivial
  | [s], h =>
    ⟨Statement.stands_form (h s (by simp)) _, longest_nil_end, trivial⟩
  | s :: t :: ss, h => by
    have ht : ∀ u ∈ t :: ss, u.WellFormed := fun u hu => h u (List.mem_cons_of_mem s hu)
    exact ⟨Statement.stands_form (h s (by simp)) _, longest_space (longest_nil_spaced ht),
      statementsStand_spaced ht⟩

/-- Statements that are written with one space between them are read back. -/
theorem parse_intercalate_text {ss : List Statement} (h : ∀ s ∈ ss, s.WellFormed) :
    parse (" ".intercalate (ss.map Statement.text)) = .ok ss := by
  have hp : Source.Program.ofSource (" ".intercalate (ss.map Statement.text)) =
      .ok ⟨[], spaced (ss.map Statement.form)⟩ := by
    refine Source.Program.ofSource_eq_ok_iff.2
      ⟨?_, longest_nil_spaced h, statementsStand_spaced h⟩
    rw [Source.Program.text, List.nil_append, statementsText_spaced, String.toList_intercalate]
    simp [Function.comp_def, Statement.text]
  have hs : statementsOf ⟨[], spaced (ss.map Statement.form)⟩ = ss := by
    calc (spaced (ss.map Statement.form)).map (fun p => Statement.ofForm p.1)
        = ((spaced (ss.map Statement.form)).map Prod.fst).map Statement.ofForm := by
          rw [List.map_map]; rfl
      _ = ss := by
          rw [map_fst_spaced]; simp [Function.comp_def, Statement.ofForm_form]
  rw [parse, hp, Except.map, hs]

/-- **Parsing is the inverse of writing.**  All that is parsed is well-formed, and well-formed
statements that are written with one space between them are read back as they are. -/
theorem parse_inverse :
    (∀ source ss, parse source = .ok ss → ∀ s ∈ ss, s.WellFormed) ∧
      ∀ ss : List Statement, (∀ s ∈ ss, s.WellFormed) →
        parse (" ".intercalate (ss.map Statement.text)) = .ok ss :=
  ⟨fun _ _ => wellFormed_of_parse, fun _ => parse_intercalate_text⟩

/-- A statement whose literals look like layout, a reference, a quoted text or nothing. -/
def tricky : Statement :=
  ⟨some "out", "ns:run", [.literal "", .literal "\\", .literal "//x", .literal "\"\\\n"],
    [("k", .literal "$v"), ("to", .reference "v")], by decide⟩

theorem parse_inverse_tricky : tricky.WellFormed ∧
    parse (" ".intercalate ([tricky, tricky].map Statement.text)) = .ok [tricky, tricky] := by
  have h : tricky.WellFormed := by
    refine ⟨?_, ?_, ?_, ?_⟩
    · simp [tricky, Run, isNameChar]
    · simp [tricky, Run, isCommandChar, isNameChar]
    · simp [tricky, Argument.WellFormed]
    · simp [tricky, Argument.WellFormed, Run, isNameChar]
  exact ⟨h, parse_inverse.2 _ (by simpa using h)⟩

end Runbook.Script
