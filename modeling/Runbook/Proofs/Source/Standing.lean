/-
  Forms in a text: which forms are read.

  A form stands before a text if, read there, each of its parts ends where it does:
  layout, names and words are as long as they can be, and an argument without a key
  is not followed by a colon.

  * `Argument.read_text`, `readArguments_argumentsText`, `Call.read_text`,
    `Statement.read_text` and their converses: what is read at each level is what
    stands before the rest;
  * `Program.read_eq_ok_iff`: **the programs that are read are those that stand.**
-/
import Runbook.Proofs.Source.Words

namespace Runbook.Source

/-! ## Arguments -/

/-- An argument stands before a text if its word does.  Without a key it must not look like the key
of another. -/
def Argument.Stands (rest : List Char) (a : Argument) : Prop :=
  a.word.Stands rest ∧
    match a.key with
    | none => rest.head? ≠ some ':'
    | some key => Run isNameChar key

/-- An argument begins with no colon and no parenthesis. -/
theorem Argument.exists_cons_text {a : Argument} {rest : List Char} (h : a.Stands rest) :
    ∃ c cs, a.text = c :: cs ∧ (c = '$' ∨ isBareChar c = true) := by
  obtain ⟨key, w⟩ := a
  cases key with
  | none => exact Word.exists_cons_text h.1
  | some key =>
    obtain ⟨c, cs, rfl⟩ := List.exists_cons_of_ne_nil h.2.1
    exact ⟨c, cs ++ ':' :: w.text, rfl, Or.inr (isBareChar_of_isNameChar (h.2.2 c (by simp)))⟩

/-- A run of name characters up to a colon is a bare text up to that colon. -/
theorem not_colon_of_stands {w : Word} {rest key r : List Char} (h : w.Stands rest)
    (hc : rest.head? ≠ some ':') (hk : Run isNameChar key) : w.text ++ rest ≠ key ++ ':' :: r := by
  intro e
  obtain ⟨k, ks, rfl⟩ := List.exists_cons_of_ne_nil hk.1
  have hk₀ : isNameChar k = true := hk.2 k (by simp)
  cases w with
  | reference name =>
    obtain ⟨rfl, -⟩ := List.cons.inj e
    cases hk₀
  | quoted body =>
    obtain ⟨rfl, -⟩ := List.cons.inj e
    cases hk₀
  | bare text =>
    obtain ⟨⟨-, hb⟩, hr⟩ := longest_run_iff.1 h.1
    rcases List.append_eq_append_iff.1 e with ⟨as, hkey, hrest⟩ | ⟨as, htext, hcolon⟩
    · -- the key ends after the text
      cases as with
      | nil => exact hc (by simp [hrest])
      | cons a as =>
        have ha : isBareChar a = true :=
          isBareChar_of_isNameChar (hk.2 a (by rw [hkey]; simp))
        rw [hr a (by simp [hrest])] at ha
        cases ha
    · -- the key ends in the text
      cases as with
      | nil => exact hc (by simp only [List.nil_append] at hcolon; simp [← hcolon])
      | cons a as =>
        obtain ⟨rfl, -⟩ := List.cons.inj hcolon
        exact absurd (hb ':' (by simp only [Word.text] at htext; simp [htext])) (by decide)

theorem Argument.readNamed_eq_none {cs : List Char}
    (h : ∀ key r, Run isNameChar key → cs ≠ key ++ ':' :: r) :
    Argument.readNamed cs = .ok none := by
  unfold Argument.readNamed
  split
  · rfl
  · next r hd hne =>
    refine absurd ?_ (h _ r (longest_of_takeWhile hne).1)
    have := @List.takeWhile_append_dropWhile _ isNameChar cs
    rwa [hd, eq_comm] at this
  · rfl

theorem Argument.readNamed_text {key rest : List Char} {w : Word} (hk : Run isNameChar key)
    (h : w.Stands rest) : Argument.readNamed (key ++ ':' :: (w.text ++ rest)) =
      .ok (some (⟨some key, w⟩, rest)) := by
  have hl : Longest (Run isNameChar) key (':' :: (w.text ++ rest)) :=
    longest_run_iff.2 ⟨hk, fun c hc => by cases hc; rfl⟩
  obtain ⟨ht, hd⟩ := takeWhile_of_longest hl
  obtain ⟨c, cs, rfl⟩ := List.exists_cons_of_ne_nil hk.1
  simp only [Argument.readNamed, ht, hd, Word.read_text h]
  rfl

/-- An argument that stands before a text is read there. -/
theorem Argument.read_text {a : Argument} {rest : List Char} (h : a.Stands rest) :
    Argument.read (a.text ++ rest) = .ok (a, rest) := by
  obtain ⟨key, w⟩ := a
  cases key with
  | none =>
    have hn : Argument.readNamed (w.text ++ rest) = .ok none :=
      Argument.readNamed_eq_none fun key r hk => not_colon_of_stands h.1 h.2 hk
    simp only [Argument.text, Argument.read, hn, Word.read_text h.1, bind, Except.bind]
  | some key =>
    have hn := Argument.readNamed_text h.2 h.1
    simp only [Argument.text, Argument.read, List.append_assoc, List.cons_append, hn, bind,
      Except.bind]

/-- The word of an argument that is read stands before what is left, and its key is a name. -/
theorem Argument.word_stands_of_read {cs rest : List Char} {a : Argument}
    (h : Argument.read cs = .ok (a, rest)) :
    a.word.Stands rest ∧ ∀ key ∈ a.key, Run isNameChar key := by
  unfold Argument.read at h
  cases hn : Argument.readNamed cs with
  | error e => rw [hn] at h; cases h
  | ok o =>
    rw [hn] at h
    cases o with
    | some p =>
      cases h
      unfold Argument.readNamed at hn
      split at hn
      · cases hn
      · next r hd hne =>
        cases hw : Word.read r with
        | error e => rw [hw] at hn; cases hn
        | ok o =>
          rw [hw] at hn
          cases o with
          | none => cases hn
          | some p =>
            cases hn
            exact ⟨Word.stands_of_read hw, by rintro key ⟨⟩; exact (longest_of_takeWhile hne).1⟩
      · cases hn
    | none =>
      cases hw : Word.read cs with
      | error e => simp [hw, bind, Except.bind] at h
      | ok o =>
        cases o with
        | none => simp [hw, bind, Except.bind] at h
        | some p =>
          simp only [hw, bind, Except.bind, Except.ok.injEq, Prod.mk.injEq] at h
          obtain ⟨rfl, rfl⟩ := h
          exact ⟨Word.stands_of_read hw, by rintro key ⟨⟩⟩

/-- An argument stands before a text if its word does, its key is a name, and no colon follows. -/
theorem Argument.stands_of_word {a : Argument} {rest : List Char} (hw : a.word.Stands rest)
    (hk : ∀ key ∈ a.key, Run isNameChar key) (hc : rest.head? ≠ some ':') : a.Stands rest := by
  obtain ⟨key, w⟩ := a
  cases key with
  | none => exact ⟨hw, hc⟩
  | some key => exact ⟨hw, hk key rfl⟩

/-- An argument that is read stands before what is left, unless that begins with a colon. -/
theorem Argument.stands_of_read {cs rest : List Char} {a : Argument}
    (h : Argument.read cs = .ok (a, rest)) (hc : rest.head? ≠ some ':') : a.Stands rest :=
  let ⟨hw, hk⟩ := word_stands_of_read h
  stands_of_word hw hk hc

/-- No argument begins at a colon. -/
theorem Argument.read_colon (cs : List Char) :
    Argument.read (':' :: cs) = .error ⟨.argument, ':' :: cs⟩ := by
  have hn : Argument.readNamed (':' :: cs) = .ok none := by
    refine Argument.readNamed_eq_none fun key r hk e => ?_
    obtain ⟨k, ks, rfl⟩ := List.exists_cons_of_ne_nil hk.1
    obtain ⟨rfl, -⟩ := List.cons.inj e
    exact absurd (hk.2 ':' (by simp)) (by decide)
  have hw : Word.read (':' :: cs) = .ok none :=
    Word.read_eq_none_iff.2 fun c hc => by cases hc; decide
  simp only [Argument.read, hn, hw, bind, Except.bind]

/-- Arguments with their layouts stand before a text. -/
def ArgumentsStand (rest : List Char) : List (List Char × Argument) → Prop
  | [] => True
  | (layout, a) :: arguments =>
    Longest Layout layout (a.text ++ (argumentsText arguments ++ rest)) ∧
      a.Stands (argumentsText arguments ++ rest) ∧ ArgumentsStand rest arguments

theorem argumentsText_cons (layout : List Char) (a : Argument)
    (arguments : List (List Char × Argument)) (rest : List Char) :
    argumentsText ((layout, a) :: arguments) ++ rest =
      layout ++ (a.text ++ (argumentsText arguments ++ rest)) := by
  simp [argumentsText]

/-- Reading arguments ends before a closing parenthesis. -/
theorem readArguments_closing {cs closing rest : List Char}
    (h : splitLayout cs = (closing, ')' :: rest)) :
    readArguments cs = .ok ([], closing, ')' :: rest) := by
  rw [readArguments]
  split
  · next hs => rw [hs] at h; cases h
  · next hs => rw [hs] at h; cases h; rfl
  · next hne hs => rw [hs] at h; cases h; exact absurd rfl hne

/-- Reading arguments goes on with an argument where there is something else. -/
theorem readArguments_next {cs layout cs' : List Char} {c : Char}
    (h : splitLayout cs = (layout, c :: cs')) (hc : c ≠ ')') :
    readArguments cs =
      match Argument.read (c :: cs') with
      | .error e => .error e
      | .ok (a, rest) =>
        (readArguments rest).map fun (arguments, tail) => ((layout, a) :: arguments, tail) := by
  rw [readArguments]
  split
  · next hs => rw [hs] at h; cases h
  · next hs => rw [hs] at h; cases h; exact absurd rfl hc
  · next hs =>
    rw [hs] at h
    cases h
    split
    · next ha => simp only [ha]
    · next a rest ha =>
      simp only [ha]
      cases readArguments rest <;> rfl

/-- Arguments that stand before the layout and the parenthesis that close a command are read. -/
theorem readArguments_argumentsText {closing rest : List Char}
    (hc : Longest Layout closing (')' :: rest)) : ∀ {arguments : List (List Char × Argument)},
    ArgumentsStand (closing ++ ')' :: rest) arguments →
    readArguments (argumentsText arguments ++ (closing ++ ')' :: rest)) =
      .ok (arguments, closing, ')' :: rest)
  | [], _ => readArguments_closing (longest_layout_iff.1 hc)
  | (layout, a) :: arguments, ⟨hl, ha, hs⟩ => by
    obtain ⟨c, cs, htext, hcs⟩ := Argument.exists_cons_text ha
    have hne : c ≠ ')' := by
      rintro rfl
      exact hcs.elim (by decide) (by decide)
    have hsplit := longest_layout_iff.1 hl
    have hread := Argument.read_text ha
    rw [htext, List.cons_append] at hsplit hread
    rw [argumentsText_cons, htext, List.cons_append, readArguments_next hsplit hne, hread]
    simp only [readArguments_argumentsText hc hs]
    rfl

/-- Arguments cannot be read at a colon. -/
theorem readArguments_colon (cs : List Char) :
    readArguments (':' :: cs) = .error ⟨.argument, ':' :: cs⟩ := by
  have hs : splitLayout (':' :: cs) = ([], ':' :: cs) := rfl
  rw [readArguments_next hs (by decide), Argument.read_colon]

/-- The longest layout is split off. -/
theorem longest_of_splitLayout {cs layout rest : List Char} (h : splitLayout cs = (layout, rest)) :
    Longest Layout layout rest := by
  refine longest_layout_iff.2 ?_
  have ha := splitLayout_append cs
  rw [h] at ha
  rwa [ha]

theorem longest_splitLayout (cs : List Char) :
    Longest Layout (splitLayout cs).1 (splitLayout cs).2 :=
  longest_of_splitLayout rfl

/-- Arguments that are read begin with no colon. -/
theorem head_ne_colon_of_readArguments {cs : List Char} {p}
    (h : readArguments cs = .ok p) : cs.head? ≠ some ':' := by
  intro hh
  obtain ⟨cs, rfl⟩ := List.head?_eq_some_iff.1 hh
  rw [readArguments_colon] at h
  cases h

/-- Arguments that are read stand before what is left, with the layout that goes before that. -/
theorem argumentsStand_of_readArguments {cs closing rest : List Char}
    {arguments : List (List Char × Argument)}
    (h : readArguments cs = .ok (arguments, closing, rest)) :
    ArgumentsStand (closing ++ rest) arguments ∧ Longest Layout closing rest := by
  fun_induction readArguments cs generalizing arguments closing rest with
  | case1 cs layout hs => cases h; exact ⟨trivial, longest_of_splitLayout hs⟩
  | case2 cs layout r hs => cases h; exact ⟨trivial, longest_of_splitLayout hs⟩
  | case3 => cases h
  | case4 => simp_all
  | case5 cs layout c cs' _ hs a r ha _ args tail hr ih =>
    cases h
    obtain ⟨hargs, hclosing⟩ := ih hr
    have hr' := readArguments_text hr
    refine ⟨⟨?_, ?_, hargs⟩, hclosing⟩
    · rw [hr', (Argument.text_append_of_read ha).1]
      exact longest_of_splitLayout hs
    · rw [hr']
      exact Argument.stands_of_read ha (head_ne_colon_of_readArguments hr)

/-! ## Commands -/

/-- A command stands before a text. -/
structure Call.Stands (rest : List Char) (c : Call) : Prop where
  opening : Longest Layout c.opening
    (c.name ++ (argumentsText c.arguments ++ (c.closing ++ ')' :: rest)))
  name : Longest (Run isCommandChar) c.name
    (argumentsText c.arguments ++ (c.closing ++ ')' :: rest))
  arguments : ArgumentsStand (c.closing ++ ')' :: rest) c.arguments
  closing : Longest Layout c.closing (')' :: rest)

theorem Call.text_append (c : Call) (rest : List Char) :
    c.text ++ rest =
      '(' :: (c.opening ++
        (c.name ++ (argumentsText c.arguments ++ (c.closing ++ ')' :: rest)))) := by
  simp [Call.text]

/-- A command that stands before a text is read there. -/
theorem Call.read_text {c : Call} {rest : List Char} (h : c.Stands rest) :
    Call.read (c.text ++ rest) = .ok (c, rest) := by
  have hl := longest_layout_iff.1 h.opening
  obtain ⟨ht, hd⟩ := takeWhile_of_longest h.name
  have ha := readArguments_argumentsText h.closing h.arguments
  rw [Call.text_append]
  simp only [Call.read, expect, if_true, bind, Except.bind, hl, ht, hd, ha, h.name.1.1, if_false]

/-- A command that is read stands before what is left. -/
theorem Call.stands_of_read {cs rest : List Char} {c : Call} (h : Call.read cs = .ok (c, rest)) :
    c.Stands rest := by
  unfold Call.read at h
  cases h₁ : expect '(' .openParen cs with
  | error e => rw [h₁] at h; cases h
  | ok r =>
    rw [h₁] at h
    simp only [bind, Except.bind] at h
    split at h
    · cases h
    · next hne =>
      cases h₂ : readArguments ((splitLayout r).2.dropWhile isCommandChar) with
      | error e => rw [h₂] at h; cases h
      | ok p =>
        obtain ⟨arguments, closing, r₂⟩ := p
        rw [h₂] at h
        cases h₃ : expect ')' .closeParen r₂ with
        | error e => simp [h₃] at h
        | ok r₃ =>
          simp only [h₃, Except.ok.injEq, Prod.mk.injEq] at h
          obtain ⟨rfl, rfl⟩ := h
          rw [← cons_of_expect h₃] at h₂
          obtain ⟨hargs, hclosing⟩ := argumentsStand_of_readArguments h₂
          have htext := readArguments_text h₂
          refine ⟨?_, ?_, hargs, hclosing⟩
          · rw [htext, List.takeWhile_append_dropWhile]
            exact longest_of_splitLayout rfl
          · rw [htext]
            exact longest_of_takeWhile hne

/-! ## Statements and programs -/

/-- A statement stands before a text. -/
def Statement.Stands (rest : List Char) (s : Statement) : Prop :=
  s.call.Stands rest ∧
    match s.target with
    | none => True
    | some (name, layout) => Run isNameChar name ∧ Longest Layout layout (s.call.text ++ rest)

/-- A statement that stands before a text is read there. -/
theorem Statement.read_text {s : Statement} {rest : List Char} (h : s.Stands rest) :
    Statement.read (s.text ++ rest) = .ok (s, rest) := by
  obtain ⟨target, call⟩ := s
  obtain ⟨hc, ht⟩ := h
  have hread := Call.read_text hc
  cases target with
  | none =>
    have hh : (call.text ++ rest).head? = some '(' := rfl
    simp only [Statement.text, Statement.read, hh, if_true, hread, bind, Except.bind]
  | some p =>
    obtain ⟨name, layout⟩ := p
    obtain ⟨hn, hl⟩ := ht
    have hlong : Longest (Run isNameChar) name (':' :: (layout ++ (call.text ++ rest))) :=
      longest_run_iff.2 ⟨hn, fun c hc => by cases hc; rfl⟩
    obtain ⟨htake, hdrop⟩ := takeWhile_of_longest hlong
    obtain ⟨c, cs, rfl⟩ := List.exists_cons_of_ne_nil hn.1
    have hh : c ≠ '(' := by
      rintro rfl
      exact absurd (hn.2 '(' (by simp)) (by decide)
    have hsplit := longest_layout_iff.1 hl
    simp only [List.cons_append] at htake hdrop
    simp only [Statement.text, Statement.read, List.cons_append, List.append_assoc,
      List.head?_cons, Option.some.injEq, hh, if_false, htake, hdrop, reduceCtorEq, expect, if_true,
      bind, Except.bind, hsplit, hread]

/-- A statement that is read stands before what is left. -/
theorem Statement.stands_of_read {cs rest : List Char} {s : Statement}
    (h : Statement.read cs = .ok (s, rest)) : s.Stands rest := by
  unfold Statement.read at h
  simp only at h
  split at h
  · cases hc : Call.read cs with
    | error e => rw [hc] at h; cases h
    | ok p =>
      rw [hc] at h
      cases h
      exact ⟨Call.stands_of_read hc, trivial⟩
  · split at h
    · cases h
    · next hne =>
      cases h₁ : expect ':' .colon (cs.dropWhile isNameChar) with
      | error e => rw [h₁] at h; cases h
      | ok r =>
        rw [h₁] at h
        simp only [bind, Except.bind] at h
        cases h₂ : Call.read (splitLayout r).2 with
        | error e => rw [h₂] at h; cases h
        | ok p =>
          rw [h₂] at h
          cases h
          refine ⟨Call.stands_of_read h₂, (longest_of_takeWhile hne).1, ?_⟩
          rw [Call.text_append_of_read h₂]
          exact longest_of_splitLayout rfl

/-- Statements with their layouts stand at the end of a text. -/
def StatementsStand : List (Statement × List Char) → Prop
  | [] => True
  | (s, layout) :: statements =>
    s.Stands (layout ++ statementsText statements) ∧
      Longest Layout layout (statementsText statements) ∧ StatementsStand statements

theorem statementsText_cons (s : Statement) (layout : List Char)
    (statements : List (Statement × List Char)) :
    statementsText ((s, layout) :: statements) =
      s.text ++ (layout ++ statementsText statements) := by
  simp [statementsText]

/-- Reading statements goes on where there is text. -/
theorem readStatements_next {cs : List Char} (h : cs ≠ []) :
    readStatements cs =
      match Statement.read cs with
      | .error e => .error e
      | .ok (s, rest) =>
        (readStatements (splitLayout rest).2).map fun statements =>
          (s, (splitLayout rest).1) :: statements := by
  obtain ⟨c, cs, rfl⟩ := List.exists_cons_of_ne_nil h
  rw [readStatements]
  split
  · next hs => simp only [hs]
  · next s rest hs =>
    simp only [hs]
    cases readStatements (splitLayout rest).2 <;> rfl

/-- Statements that stand are read. -/
theorem readStatements_statementsText : ∀ {statements : List (Statement × List Char)},
    StatementsStand statements → readStatements (statementsText statements) = .ok statements
  | [], _ => by rw [statementsText, List.flatMap_nil, readStatements]
  | (s, layout) :: statements, ⟨hs, hl, h⟩ => by
    have hne : s.text ++ (layout ++ statementsText statements) ≠ [] :=
      fun e => s.text_ne_nil (List.append_eq_nil_iff.1 e).1
    rw [statementsText_cons, readStatements_next hne, Statement.read_text hs]
    simp only [longest_layout_iff.1 hl, readStatements_statementsText h]
    rfl

/-- Statements that are read stand. -/
theorem statementsStand_of_readStatements {cs : List Char}
    {statements : List (Statement × List Char)} (h : readStatements cs = .ok statements) :
    StatementsStand statements := by
  fun_induction readStatements cs generalizing statements with
  | case1 => cases h; trivial
  | case2 => cases h
  | case3 => simp_all
  | case4 c cs s rest hs _ sts hr ih =>
    cases h
    have htext := readStatements_text hr
    refine ⟨?_, ?_, ih hr⟩
    · rw [htext, splitLayout_append]
      exact Statement.stands_of_read hs
    · rw [htext]
      exact longest_of_splitLayout rfl

/-- A program stands if each of its parts does. -/
def Program.Stands (p : Program) : Prop :=
  Longest Layout p.leading (statementsText p.statements) ∧ StatementsStand p.statements

/-- **The programs that are read are those that stand.** -/
theorem Program.read_eq_ok_iff {cs : List Char} {p : Program} :
    Program.read cs = .ok p ↔ p.text = cs ∧ p.Stands := by
  constructor
  · intro h
    refine ⟨Program.text_of_read h, ?_⟩
    unfold Program.read at h
    cases hs : readStatements (splitLayout cs).2 with
    | error e => rw [hs] at h; cases h
    | ok statements =>
      rw [hs] at h
      cases h
      refine ⟨?_, statementsStand_of_readStatements hs⟩
      rw [readStatements_text hs]
      exact longest_of_splitLayout rfl
  · rintro ⟨rfl, hl, hs⟩
    simp only [Program.read, Program.text, longest_layout_iff.1 hl,
      readStatements_statementsText hs]
    rfl

theorem Program.ofSource_eq_ok_iff {source : String} {p : Program} :
    Program.ofSource source = .ok p ↔ p.text = source.toList ∧ p.Stands := by
  rw [← Program.read_eq_ok_iff, Program.ofSource]
  cases Program.read source.toList <;> simp [Except.mapError]

end Runbook.Source
