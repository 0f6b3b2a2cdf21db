/-
  Reading a program off its text.

  Each reader takes its part off the front of a text and returns it with the
  rest, or fails with the text that is left where something else was expected.
  Names, bare words and layout are as long as they can be; a word that begins
  with `$` or a double quote is nothing but a reference or a quoted text; an
  argument is named whenever a name, a colon and a word stand in a row.

  * `Word.text_append_of_read`, …, `readStatements_text`: what is read and what
    is left make up the text that was there;
  * `Program.text_of_read`: **a program is read without loss.**
-/
import Runbook.Source.Form
import Runbook.Source.Layout
import Runbook.Source.SyntaxError
import Runbook.Text.Basic

namespace Runbook.Source

/-! ## Words -/

/-- Reads a word; `none` where no word begins. -/
def Word.read : List Char → Except Failure (Option (Word × List Char))
  | '$' :: cs =>
    match cs.takeWhile isNameChar with
    | [] => .error ⟨.variableName, cs⟩
    | name => .ok (some (.reference name, cs.dropWhile isNameChar))
  | '"' :: cs =>
    match Text.splitDelimited '"' cs with
    | none => .error ⟨.closingQuote, '"' :: cs⟩
    | some (body, rest) => .ok (some (.quoted body, rest))
  | cs =>
    match cs.takeWhile isBareChar with
    | [] => .ok none
    | text => .ok (some (.bare text, cs.dropWhile isBareChar))

theorem Word.text_append_of_read {cs rest : List Char} {w : Word}
    (h : Word.read cs = .ok (some (w, rest))) : w.text ++ rest = cs ∧ w.text ≠ [] := by
  unfold Word.read at h
  split at h
  · split at h
    · cases h
    · cases h; simp [Word.text]
  · split at h
    · cases h
    · next hs => cases h; simpa [Word.text] using Text.splitDelimited_append hs
  · split at h
    · cases h
    · next hne => cases h; exact ⟨List.takeWhile_append_dropWhile, hne⟩

/-! ## Arguments -/

/-- Reads the word of a named argument, if a name and a colon begin the text and a word follows. -/
def Argument.readNamed (cs : List Char) : Except Failure (Option (Argument × List Char)) :=
  match cs.takeWhile isNameChar, cs.dropWhile isNameChar with
  | [], _ => .ok none
  | key, ':' :: rest => do
    match ← Word.read rest with
    | none => .ok none
    | some (w, rest) => .ok (some (⟨some key, w⟩, rest))
  | _, _ => .ok none

/-- Reads an argument, named if it can be. -/
def Argument.read (cs : List Char) : Except Failure (Argument × List Char) := do
  match ← Argument.readNamed cs with
  | some named => .ok named
  | none =>
    match ← Word.read cs with
    | none => .error ⟨.argument, cs⟩
    | some (w, rest) => .ok (⟨none, w⟩, rest)

theorem Argument.text_append_of_readNamed {cs rest : List Char} {a : Argument}
    (h : Argument.readNamed cs = .ok (some (a, rest))) : a.text ++ rest = cs ∧ a.text ≠ [] := by
  unfold Argument.readNamed at h
  split at h
  · cases h
  · next r hr _ =>
    cases hw : Word.read r with
    | error e => rw [hw] at h; cases h
    | ok o =>
      rw [hw] at h
      cases o with
      | none => cases h
      | some p =>
        cases h
        have ht := (Word.text_append_of_read hw).1
        refine ⟨?_, by simp [Argument.text]⟩
        have hs := @List.takeWhile_append_dropWhile _ isNameChar cs
        rw [hr, ← ht] at hs
        simpa [Argument.text] using hs
  · cases h

theorem Argument.text_append_of_read {cs rest : List Char} {a : Argument}
    (h : Argument.read cs = .ok (a, rest)) : a.text ++ rest = cs ∧ a.text ≠ [] := by
  unfold Argument.read at h
  cases hn : Argument.readNamed cs with
  | error e => rw [hn] at h; cases h
  | ok o =>
    rw [hn] at h
    cases o with
    | some p => cases h; exact text_append_of_readNamed hn
    | none =>
      cases hw : Word.read cs with
      | error e => simp [hw, bind, Except.bind] at h
      | ok o =>
        cases o with
        | none => simp [hw, bind, Except.bind] at h
        | some p =>
          simp only [hw, bind, Except.bind, Except.ok.injEq, Prod.mk.injEq] at h
          obtain ⟨rfl, rfl⟩ := h
          exact Word.text_append_of_read hw

theorem Argument.length_lt_of_read {cs rest : List Char} {a : Argument}
    (h : Argument.read cs = .ok (a, rest)) : rest.length < cs.length := by
  obtain ⟨rfl, hne⟩ := text_append_of_read h
  have := List.length_pos_iff.2 hne
  simp; omega

/-- Reads arguments up to the closing parenthesis: the arguments, each with the layout before it,
the layout before the parenthesis, and the text from there on. -/
def readArguments (cs : List Char) :
    Except Failure (List (List Char × Argument) × List Char × List Char) :=
  match hs : splitLayout cs with
  | (layout, []) => .ok ([], layout, [])
  | (layout, ')' :: rest) => .ok ([], layout, ')' :: rest)
  | (layout, c :: cs') =>
    match ha : Argument.read (c :: cs') with
    | .error e => .error e
    | .ok (a, rest) =>
      have : rest.length < cs.length :=
        Nat.lt_of_lt_of_le (Argument.length_lt_of_read ha)
          (by have h := length_splitLayout_le cs; rw [hs] at h; exact h)
      match readArguments rest with
      | .error e => .error e
      | .ok (arguments, tail) => .ok ((layout, a) :: arguments, tail)
  termination_by cs.length

theorem readArguments_text {cs : List Char} {arguments closing rest}
    (h : readArguments cs = .ok (arguments, closing, rest)) :
    argumentsText arguments ++ (closing ++ rest) = cs := by
  fun_induction readArguments cs generalizing arguments closing rest with
  | case1 cs layout hs => cases h; simpa [argumentsText, hs] using splitLayout_append cs
  | case2 cs layout r hs => cases h; simpa [argumentsText, hs] using splitLayout_append cs
  | case3 => cases h
  | case4 => simp_all
  | case5 cs layout c cs' _ hs a r ha _ args tail hr ih =>
    cases h
    have hl := splitLayout_append cs
    rw [hs] at hl
    have ht := (Argument.text_append_of_read ha).1
    have := ih hr
    simp only [argumentsText, List.flatMap_cons, List.append_assoc] at this ⊢
    rw [this, ht, hl]

/-! ## Commands -/

/-- Takes an expected character off the front. -/
def expect (c : Char) (expected : Expected) : List Char → Except Failure (List Char)
  | [] => .error ⟨expected, []⟩
  | d :: cs => if d = c then .ok cs else .error ⟨expected, d :: cs⟩

theorem cons_of_expect {c : Char} {e : Expected} {cs rest : List Char}
    (h : expect c e cs = .ok rest) : c :: rest = cs := by
  cases cs with
  | nil => cases h
  | cons d cs =>
    by_cases hd : d = c
    · simp only [expect, hd, if_true, Except.ok.injEq] at h; rw [h, hd]
    · simp [expect, hd] at h

/-- Reads a command in its parentheses. -/
def Call.read (cs : List Char) : Except Failure (Call × List Char) := do
  let cs ← expect '(' .openParen cs
  let (opening, cs) := splitLayout cs
  let name := cs.takeWhile isCommandChar
  if name = [] then .error ⟨.commandName, cs⟩ else
  let (arguments, closing, cs) ← readArguments (cs.dropWhile isCommandChar)
  let cs ← expect ')' .closeParen cs
  .ok (⟨opening, name, arguments, closing⟩, cs)

theorem Call.text_append_of_read {cs rest : List Char} {c : Call}
    (h : Call.read cs = .ok (c, rest)) : c.text ++ rest = cs := by
  unfold Call.read at h
  cases h₁ : expect '(' .openParen cs with
  | error e => rw [h₁] at h; cases h
  | ok r =>
    rw [h₁] at h
    rw [← cons_of_expect h₁, ← splitLayout_append r]
    simp only [bind, Except.bind] at h
    split at h
    · cases h
    · cases h₂ : readArguments ((splitLayout r).2.dropWhile isCommandChar) with
      | error e => rw [h₂] at h; cases h
      | ok p =>
        obtain ⟨arguments, closing, r₂⟩ := p
        rw [h₂] at h
        cases h₃ : expect ')' .closeParen r₂ with
        | error e => simp [h₃] at h
        | ok r₃ =>
          simp only [h₃, Except.ok.injEq, Prod.mk.injEq] at h
          obtain ⟨rfl, rfl⟩ := h
          have ht := readArguments_text h₂
          rw [← cons_of_expect h₃] at ht
          simp only [Call.text, List.cons_append, List.append_assoc, List.nil_append] at ht ⊢
          rw [ht, List.takeWhile_append_dropWhile]

/-! ## Statements and programs -/

/-- Reads a statement. -/
def Statement.read (cs : List Char) : Except Failure (Statement × List Char) := do
  if cs.head? = some '(' then
    let (call, rest) ← Call.read cs
    .ok (⟨none, call⟩, rest)
  else
    let name := cs.takeWhile isNameChar
    if name = [] then .error ⟨.statement, cs⟩ else
    let rest ← expect ':' .colon (cs.dropWhile isNameChar)
    let (layout, rest) := splitLayout rest
    let (call, rest) ← Call.read rest
    .ok (⟨some (name, layout), call⟩, rest)

theorem Statement.text_append_of_read {cs rest : List Char} {s : Statement}
    (h : Statement.read cs = .ok (s, rest)) : s.text ++ rest = cs := by
  unfold Statement.read at h
  simp only at h
  split at h
  · cases hc : Call.read cs with
    | error e => rw [hc] at h; cases h
    | ok p =>
      rw [hc] at h; cases h
      exact Call.text_append_of_read hc
  · split at h
    · cases h
    · cases h₁ : expect ':' .colon (cs.dropWhile isNameChar) with
      | error e => rw [h₁] at h; cases h
      | ok r =>
        rw [h₁] at h
        simp only [bind, Except.bind] at h
        cases h₂ : Call.read (splitLayout r).2 with
        | error e => rw [h₂] at h; cases h
        | ok p =>
          rw [h₂] at h; cases h
          have e₁ := cons_of_expect h₁
          have e₂ := Call.text_append_of_read h₂
          have e₃ := splitLayout_append r
          simp only [Statement.text, List.append_assoc, List.cons_append]
          rw [e₂, e₃, e₁, List.takeWhile_append_dropWhile]

theorem Statement.length_lt_of_read {cs rest : List Char} {s : Statement}
    (h : Statement.read cs = .ok (s, rest)) : rest.length < cs.length := by
  have e := text_append_of_read h
  have := List.length_pos_iff.2 s.text_ne_nil
  rw [← e]; simp; omega

/-- Reads statements to the end of the text, each with the layout after it. -/
def readStatements (cs : List Char) : Except Failure (List (Statement × List Char)) :=
  match cs with
  | [] => .ok []
  | c :: cs =>
    match hs : Statement.read (c :: cs) with
    | .error e => .error e
    | .ok (s, rest) =>
      have : (splitLayout rest).2.length < (c :: cs).length :=
        Nat.lt_of_le_of_lt (length_splitLayout_le rest) (Statement.length_lt_of_read hs)
      match readStatements (splitLayout rest).2 with
      | .error e => .error e
      | .ok statements => .ok ((s, (splitLayout rest).1) :: statements)
  termination_by cs.length
  decreasing_by exact this

theorem readStatements_text {cs : List Char} {statements}
    (h : readStatements cs = .ok statements) : statementsText statements = cs := by
  fun_induction readStatements cs generalizing statements with
  | case1 => cases h; rfl
  | case2 => cases h
  | case3 => simp_all
  | case4 c cs s rest hs _ sts hr ih =>
    cases h
    have := ih hr
    simp only [statementsText, List.flatMap_cons, List.append_assoc] at this ⊢
    rw [this, splitLayout_append, Statement.text_append_of_read hs]

/-- Reads a program, which must be the whole text. -/
def Program.read (cs : List Char) : Except Failure Program :=
  (readStatements (splitLayout cs).2).map fun statements => ⟨(splitLayout cs).1, statements⟩

/-- **A program is read without loss: its text is the text it was read from.** -/
theorem Program.text_of_read {cs : List Char} {p : Program} (h : Program.read cs = .ok p) :
    p.text = cs := by
  unfold Program.read at h
  cases hs : readStatements (splitLayout cs).2 with
  | error e => rw [hs] at h; cases h
  | ok sts =>
    rw [hs] at h; cases h
    simp only [Program.text]
    rw [readStatements_text hs, splitLayout_append]

/-- Reads a program from its source text; a failure becomes an error with its place. -/
def Program.ofSource (source : String) : Except SyntaxError Program :=
  (Program.read source.toList).mapError (Failure.locate source.toList)

end Runbook.Source
