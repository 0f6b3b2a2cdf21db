/-
  What stands before a syntax error.

  Wherever reading fails, the text up to there can be completed: a lone `$` by a name,
  an open command by a blank, a line feed and its parenthesis, and so on.  What
  completes a text begins like it up to a character that bounds layout, or with a
  blank, so what was read before the failure is read again.

  * `Argument.completable`, `completable_of_readArguments`, `Call.completable`,
    `Statement.completable`: how the text before a failure is completed at each level;
  * `Program.completable`: so it is the beginning of a program;
  * `error_viable`: **an error stands behind a beginning of a program**, and tells what
    it finds there.
-/
import Runbook.Proofs.Source.Failing
import Runbook.Proofs.Source.Relaid

namespace Runbook.Source

/-! ## Arguments -/

section
variable {cs : List Char} {f : Failure}

/-- What stands before the rest of a text can be completed to an argument.  The last character of it
bounds layout. -/
def Argument.Completable (cs rest : List Char) : Prop :=
  ∃ (before : List Char) (c : Char) (after : List Char) (a : Argument),
    cs = before ++ c :: rest ∧ Bounds c ∧ a.text = before ++ c :: after ∧ a.Stands [')']

theorem longest_x {p : Char → Bool} (hx : p 'x' = true) (hp : p ')' = false) :
    Longest (Run p) ['x'] [')'] :=
  longest_run_iff.2 ⟨⟨List.cons_ne_nil _ _, by simpa using hx⟩, by simpa using hp⟩

/-- After a key and its colon any bare word will do, and after a `$` any name. -/
theorem Argument.completable_of_readNamed (h : Argument.readNamed cs = .error f) :
    Argument.Completable cs f.rest := by
  unfold Argument.readNamed at h
  split at h
  · cases h
  · next r hr hne =>
    have hkey : Run isNameChar (cs.takeWhile isNameChar) := (longest_of_takeWhile hne).1
    have hcs : cs = cs.takeWhile isNameChar ++ ':' :: r := by
      rw [← hr, List.takeWhile_append_dropWhile]
    rcases error_of_bind h with hw | ⟨o, -, h⟩
    · rcases Word.cases_of_read hw with rfl | rfl
      · refine ⟨cs.takeWhile isNameChar ++ [':'], '$', ['x'],
          ⟨some (cs.takeWhile isNameChar), .reference ['x']⟩, ?_, ?_, ?_, longest_x rfl rfl, hkey⟩
        · simpa using hcs
        · simp [Bounds]
        · simp [Argument.text, Word.text]
      · exact ⟨cs.takeWhile isNameChar, ':', ['x'], ⟨some (cs.takeWhile isNameChar), .bare ['x']⟩,
          hcs, by simp [Bounds], rfl, ⟨longest_x rfl rfl, by simp⟩, hkey⟩
    · cases o <;> cases h
  · cases h

/-- An argument fails where it begins, or can be completed. -/
theorem Argument.completable (h : Argument.read cs = .error f) :
    cs = f.rest ∨ Argument.Completable cs f.rest := by
  rcases error_of_bind h with hn | ⟨_ | p, -, h⟩
  · exact .inr (Argument.completable_of_readNamed hn)
  · rcases error_of_bind h with hw | ⟨_ | p, -, h⟩
    · rcases Word.cases_of_read hw with hcs | hcs
      · exact .inr ⟨[], '$', ['x'], ⟨none, .reference ['x']⟩, hcs, by simp [Bounds], rfl,
          longest_x rfl rfl, by simp⟩
      · exact .inl hcs
    · cases h; exact .inl rfl
    · cases h
  · cases h

end

/-! ## Completions of commands -/

/-- Arguments and the layout behind them complete what stands before the rest of a text: with the
parenthesis they begin with it, and like the text. -/
structure Completion (before rest : List Char) (arguments : List (List Char × Argument))
    (closing : List Char) : Prop where
  begins : before <+: argumentsText arguments ++ (closing ++ [')'])
  alike : Alike (before ++ rest) (argumentsText arguments ++ (closing ++ [')']))
  arguments : ArgumentsStand (closing ++ [')']) arguments
  closing : Longest Layout closing [')']

section
variable {before rest layout closing : List Char} {arguments : List (List Char × Argument)}

/-- A line feed ends a comment, and a blank before it keeps it from continuing a line. -/
theorem Layout.longest_closing (h : Layout layout) :
    Longest Layout (layout ++ [' ', '\n']) [')'] := by
  have hclosed := (h.append (.blank rfl .nil : Layout [' '])).closed_newline
  rw [List.append_assoc] at hclosed
  exact hclosed.longest (longest_nil_of_ne rfl (by decide) (by decide) _)

/-- Arguments that are read before some text can be closed. -/
theorem ArgumentsStand.completion (h : ArgumentsStand (closing ++ rest) arguments)
    (hl : Layout closing) :
    Completion (argumentsText arguments ++ closing) rest arguments (closing ++ [' ', '\n']) := by
  have halike : Alike (closing ++ rest) (closing ++ [' ', '\n'] ++ [')']) := by
    simpa using @Alike.put ' ' closing rest ['\n', ')'] (by simp [Bounds]) rfl
  refine ⟨⟨[' ', '\n', ')'], by simp⟩, ?_, (ArgumentsRelaid.refl arguments).stand halike h,
    hl.longest_closing⟩
  simpa using halike.append (argumentsText arguments)

/-- An argument that can be completed completes a command. -/
theorem Argument.Completable.completion {cs : List Char} (h : Argument.Completable cs rest)
    (hl : Longest Layout layout cs) : ∃ before a, layout ++ cs = before ++ rest ∧
      Completion before rest [(layout, a)] [] := by
  obtain ⟨before, c, after, a, rfl, hc, htext, ha⟩ := h
  refine ⟨layout ++ before ++ [c], a, by simp, ⟨after ++ [')'], ?_⟩, ?_, ⟨?_, ha, trivial⟩, ?_⟩
  · simp [argumentsText, htext]
  · simpa [argumentsText, htext] using
      @Alike.shared c (layout ++ before) rest (after ++ [')']) hc
  · simpa [argumentsText, htext] using hl.before_shared hc (after ++ [')'])
  · exact longest_nil_of_ne rfl (by decide) (by decide) _

/-- An argument that was read goes before a completion. -/
theorem Completion.cons {a : Argument} (h : Completion before rest arguments closing)
    (hl : Longest Layout layout (a.text ++ (before ++ rest))) (hne : a.text ≠ [])
    (hw : a.word.Stands (before ++ rest)) (hk : ∀ key ∈ a.key, Run isNameChar key) :
    Completion (layout ++ (a.text ++ before)) rest ((layout, a) :: arguments) closing := by
  -- the completion is read as arguments, so a word before it is no key
  have hcolon := head_ne_colon_of_readArguments (readArguments_argumentsText h.closing h.arguments)
  refine ⟨?_, ?_, ⟨?_, ?_, h.arguments⟩, h.closing⟩
  · rw [argumentsText_cons, List.prefix_append_right_inj, List.prefix_append_right_inj]
    exact h.begins
  · rw [argumentsText_cons]
    simpa using (h.alike.append a.text).append layout
  · exact (Relaid.refl layout).longest hl (by simp [hne]) (hl.nil.nil_of_alike hne h.alike)
  · exact Argument.stands_of_word (hw.of_alike h.alike) hk hcolon

end

/-- Where reading arguments fails, they can be completed. -/
theorem completable_of_readArguments {cs : List Char} {f : Failure}
    (h : readArguments cs = .error f) : ∃ before arguments closing, cs = before ++ f.rest ∧
      Completion before f.rest arguments closing := by
  fun_induction readArguments cs with
  | case1 => cases h
  | case2 => cases h
  | case3 cs layout c cs' _ hs e ha =>
    cases h
    have hl := longest_of_splitLayout hs
    have hcs := splitLayout_append cs
    rw [hs] at hcs
    rcases Argument.completable ha with hrest | ha
    · refine ⟨layout, [], _, ?_, @ArgumentsStand.completion _ _ [] trivial hl.1⟩
      rw [← hcs, hrest]
    · obtain ⟨before, a, htext, hcompletion⟩ := ha.completion hl
      exact ⟨before, _, _, hcs.symm.trans htext, hcompletion⟩
  | case4 cs layout c cs' _ hs a r ha _ e hr ih =>
    cases h
    obtain ⟨before, arguments, closing, rfl, hcompletion⟩ := ih hr
    obtain ⟨htext, hne⟩ := Argument.text_append_of_read ha
    obtain ⟨hw, hk⟩ := Argument.word_stands_of_read ha
    have hl := longest_of_splitLayout hs
    have hcs := splitLayout_append cs
    rw [hs] at hcs
    rw [← htext] at hl hcs
    exact ⟨_, _, _, by simpa using hcs.symm, hcompletion.cons hl hne hw hk⟩
  | case5 => cases h

/-! ## Commands -/

/-- What follows arguments that are read is a parenthesis or nothing. -/
theorem rest_of_readArguments {cs closing rest : List Char}
    {arguments : List (List Char × Argument)}
    (h : readArguments cs = .ok (arguments, closing, rest)) :
    rest = [] ∨ rest.head? = some ')' := by
  fun_induction readArguments cs generalizing arguments closing rest with
  | case1 => cases h; exact .inl rfl
  | case2 => cases h; exact .inr rfl
  | case3 => cases h
  | case4 => cases h
  | case5 cs layout c cs' _ hs a r ha _ args tail hr ih => cases h; exact ih hr

/-- The command that consists of a name, after some layout. -/
def Call.bare (opening : List Char) : Call := ⟨opening, ['c'], [], []⟩

theorem Call.stands_bare {opening : List Char} (h : Closed opening) (rest : List Char) :
    (Call.bare opening).Stands rest := by
  have hname : Longest (Run isCommandChar) ['c'] (')' :: rest) :=
    longest_run_iff.2 ⟨⟨by simp, by simp; decide⟩, by simp; decide⟩
  exact ⟨h.longest (longest_nil_name hname.1 _), hname, trivial,
    longest_nil_of_ne rfl (by decide) (by decide) _⟩

/-- What stands before the rest of a text can be completed to a command. -/
def Call.Completable (cs rest : List Char) : Prop :=
  ∃ (before : List Char) (c : Call), cs = before ++ rest ∧ before <+: c.text ∧ c.Stands []

/-- A completion goes behind the name before which it was read. -/
theorem Completion.completable {before rest opening name closing : List Char}
    {arguments : List (List Char × Argument)} (h : Completion before rest arguments closing)
    (ho : Closed opening) (hn : Longest (Run isCommandChar) name (before ++ rest)) :
    Call.Completable ('(' :: (opening ++ (name ++ (before ++ rest)))) rest := by
  refine ⟨'(' :: (opening ++ (name ++ before)), ⟨opening, name, arguments, closing⟩, by simp, ?_,
    ho.longest (longest_nil_name hn.1 _),
    Longest.run_of_alike h.alike (fun _ => isCommandChar_of_isBlank) hn, h.arguments, h.closing⟩
  simpa [Call.text] using h.begins

/-- **Where reading a command fails, it can be completed.** -/
theorem Call.completable {cs : List Char} {f : Failure} (h : Call.read cs = .error f) :
    Call.Completable cs f.rest := by
  rcases error_of_bind h with h₁ | ⟨r, h₁, h⟩
  · exact ⟨[], .bare [], (rest_of_expect h₁).1, List.nil_prefix, Call.stands_bare .nil _⟩
  rw [← cons_of_expect h₁]
  rcases hs : splitLayout r with ⟨opening, r₁⟩
  have hl := longest_of_splitLayout hs
  have hr := splitLayout_append r
  rw [hs] at h hr
  subst hr
  dsimp only at h
  split at h
  · -- a line feed ends the layout before the missing name
    cases h
    exact ⟨'(' :: opening, .bare (opening ++ ['\n']), rfl,
      ⟨['\n', 'c', ')'], by simp [Call.text, Call.bare, argumentsText]⟩,
      Call.stands_bare hl.1.closed_newline _⟩
  · next hne =>
    have hname := longest_of_takeWhile hne
    have ho : Closed opening := by
      obtain ⟨c, cs', hcons⟩ := List.exists_cons_of_ne_nil fun e : r₁ = [] => hne (by rw [e]; rfl)
      rw [hcons] at hl
      exact hl.closed
    have hcompletion : ∃ before arguments closing, r₁.dropWhile isCommandChar = before ++ f.rest ∧
        Completion before f.rest arguments closing := by
      rcases error_of_bind h with h₂ | ⟨⟨arguments, closing, r₂⟩, h₂, h⟩
      · exact completable_of_readArguments h₂
      · -- only at the end of the text no parenthesis follows
        rcases error_of_bind h with h₃ | ⟨_, -, h⟩
        · obtain ⟨hrest, hparen⟩ := rest_of_expect h₃
          obtain ⟨hargs, hclosing⟩ := argumentsStand_of_readArguments h₂
          have hr₂ : r₂ = [] := (rest_of_readArguments h₂).resolve_right hparen
          subst hr₂
          rw [← hrest]
          exact ⟨_, _, _, by simpa using (readArguments_text h₂).symm, hargs.completion hclosing.1⟩
        · cases h
    obtain ⟨before, arguments, closing, hd, hcompletion⟩ := hcompletion
    have hr₁ := @List.takeWhile_append_dropWhile _ isCommandChar r₁
    rw [hd] at hr₁ hname
    rw [← hr₁]
    exact hcompletion.completable ho hname

/-! ## Statements and programs -/

/-- What stands before the rest of a text can be completed to a statement. -/
def Statement.Completable (cs rest : List Char) : Prop :=
  ∃ (before : List Char) (s : Statement), cs = before ++ rest ∧ before <+: s.text ∧ s.Stands []

/-- A command that can be completed goes behind the variable that takes its result. -/
theorem Call.Completable.assign {name layout cs rest : List Char} (h : Call.Completable cs rest)
    (hn : Run isNameChar name) (hl : Longest Layout layout cs) :
    Statement.Completable (name ++ ':' :: (layout ++ cs)) rest := by
  obtain ⟨before, c, rfl, hbefore, hc⟩ := h
  cases before with
  | nil =>
    -- at the end of the text a line feed ends the layout
    refine ⟨name ++ ':' :: layout, ⟨some (name, layout ++ ['\n']), c⟩, by simp,
      ⟨'\n' :: c.text, by simp [Statement.text]⟩, hc, hn, ?_⟩
    exact hl.1.closed_newline.longest (c.longest_nil [])
  | cons d before =>
    refine ⟨name ++ ':' :: (layout ++ d :: before), ⟨some (name, layout), c⟩, by simp, ?_, hc, hn,
      hl.closed.longest (c.longest_nil [])⟩
    simpa [Statement.text] using hbefore

/-- **Where reading a statement fails, it can be completed.** -/
theorem Statement.completable {cs : List Char} {f : Failure} (h : Statement.read cs = .error f) :
    Statement.Completable cs f.rest := by
  have hbare : (Call.bare []).Stands [] := Call.stands_bare .nil []
  unfold Statement.read at h
  dsimp only at h
  split at h
  · rcases error_of_bind h with hc | ⟨p, -, h⟩
    · obtain ⟨before, c, hcs, hbefore, hc⟩ := Call.completable hc
      exact ⟨before, ⟨none, c⟩, hcs, hbefore, hc, trivial⟩
    · cases h
  split at h
  · cases h
    exact ⟨[], ⟨none, .bare []⟩, rfl, List.nil_prefix, hbare, trivial⟩
  next hne =>
  have hname : Run isNameChar (cs.takeWhile isNameChar) := (longest_of_takeWhile hne).1
  have hcs := @List.takeWhile_append_dropWhile _ isNameChar cs
  rcases error_of_bind h with h₁ | ⟨r, h₁, h⟩
  · refine ⟨cs.takeWhile isNameChar, ⟨some (cs.takeWhile isNameChar, []), .bare []⟩, ?_,
      List.prefix_append .., hbare, hname, (Call.bare []).longest_nil []⟩
    rw [← (rest_of_expect h₁).1, hcs]
  · rcases error_of_bind h with h₂ | ⟨p, -, h⟩
    · have hassign := (Call.completable h₂).assign hname (longest_splitLayout r)
      rwa [splitLayout_append, cons_of_expect h₁, hcs] at hassign
    · cases h

/-- No layout begins at statements that stand. -/
theorem StatementsStand.longest_nil {statements : List (Statement × List Char)}
    (h : StatementsStand statements) : Longest Layout [] (statementsText statements) := by
  cases statements with
  | nil => exact longest_nil_end
  | cons p statements =>
    obtain ⟨s, layout⟩ := p
    rw [statementsText_cons]
    exact Statement.longest_nil h.1 _

/-- There is something where reading statements fails, so the layout before it is closed. -/
theorem Longest.closed_of_readStatements {layout cs : List Char} {f : Failure}
    (hl : Longest Layout layout cs) (h : readStatements cs = .error f) : Closed layout := by
  cases cs with
  | nil => rw [readStatements] at h; cases h
  | cons c cs => exact hl.closed

/-- Where reading statements fails, they can be completed. -/
theorem completable_of_readStatements {cs : List Char} {f : Failure}
    (h : readStatements cs = .error f) : ∃ before statements, cs = before ++ f.rest ∧
      before <+: statementsText statements ∧ StatementsStand statements := by
  fun_induction readStatements cs with
  | case1 => cases h
  | case2 c cs e hs =>
    cases h
    obtain ⟨before, s, hcs, hbefore, hs⟩ := Statement.completable hs
    exact ⟨before, [(s, [])], hcs, by simpa [statementsText] using hbefore, hs, longest_nil_end,
      trivial⟩
  | case3 c cs s rest hs _ e hr ih =>
    cases h
    obtain ⟨before, statements, hrest, hbefore, hstand⟩ := ih hr
    have hl := longest_splitLayout rest
    refine ⟨s.text ++ ((splitLayout rest).1 ++ before), (s, (splitLayout rest).1) :: statements, ?_,
      ?_, (Statement.stands_of_read hs).any _,
      (hl.closed_of_readStatements hr).longest hstand.longest_nil, hstand⟩
    · rw [List.append_assoc, List.append_assoc, ← hrest, splitLayout_append,
        Statement.text_append_of_read hs]
    · rw [statementsText_cons, List.prefix_append_right_inj, List.prefix_append_right_inj]
      exact hbefore
  | case4 => cases h

/-- **What stands before a failure is the beginning of a program.** -/
theorem Program.completable {cs : List Char} {f : Failure} (h : Program.read cs = .error f) :
    ∃ (before : List Char) (p : Program), cs = before ++ f.rest ∧ before <+: p.text ∧ p.Stands := by
  unfold Program.read at h
  cases hs : readStatements (splitLayout cs).2 with
  | ok statements => rw [hs] at h; cases h
  | error e =>
    rw [hs] at h
    cases h
    obtain ⟨before, statements, hrest, hbefore, hstand⟩ := completable_of_readStatements hs
    have hl := longest_splitLayout cs
    refine ⟨(splitLayout cs).1 ++ before, ⟨(splitLayout cs).1, statements⟩, ?_, ?_,
      (hl.closed_of_readStatements hs).longest hstand.longest_nil, hstand⟩
    · rw [List.append_assoc, ← hrest, splitLayout_append]
    · rw [Program.text, List.prefix_append_right_inj]
      exact hbefore

/-! ## Errors -/

/-- **An error stands behind a beginning of a program.**  It has the place of an offset and tells
the character there, or that the source ends; and some text makes a program of what stands before. -/
theorem error_viable {source : String} {e : SyntaxError} (h : Program.ofSource source = .error e) :
    ∃ offset ≤ source.toList.length, e.location = .ofOffset source.toList offset ∧
      e.detail = e.expected.message ++ ", found " ++
        (match source.toList[offset]? with
          | none => "end of input"
          | some c => Text.quoted (String.singleton c)) ∧
      ∃ more p, Program.ofSource (String.ofList (source.toList.take offset) ++ more) = .ok p := by
  unfold Program.ofSource at h
  cases hf : Program.read source.toList with
  | ok p => rw [hf] at h; cases h
  | error f =>
    rw [hf] at h
    cases h
    obtain ⟨before, p, hsource, ⟨more, hp⟩, hstand⟩ := Program.completable hf
    refine ⟨before.length, by simp [hsource], ?_, ?_, String.ofList more, p, ?_⟩
    · rw [hsource, Failure.locate_eq, Location.ofOffset_length]
    · rw [hsource, Failure.locate_eq, List.getElem?_append_right (Nat.le_refl _), Nat.sub_self,
        ← List.head?_eq_getElem?]
      rfl
    · refine Program.ofSource_eq_ok_iff.2 ⟨?_, hstand⟩
      simp [hsource, hp]

/-- A named argument whose quote is not closed, in the second line. -/
def unclosed : String := "(a // b\n k:\"v)"

theorem error_viable_unclosed :
    Program.ofSource unclosed = .error ⟨.closingQuote, some '"', 2, 4⟩ ∧
      (⟨.closingQuote, some '"', 2, 4⟩ : SyntaxError).detail =
        "Unterminated string, found " ++ Text.quoted "\"" ∧
      ∃ more p, Program.ofSource ("(a // b\n k:" ++ more) = .ok p := by
  have herror : Program.ofSource unclosed = .error ⟨.closingQuote, some '"', 2, 4⟩ := by
    decide +kernel
  obtain ⟨offset, -, hplace, hdetail, hviable⟩ := error_viable herror
  obtain rfl : 11 = offset :=
    (Location.ofOffset_inj unclosed.toList).1 (Eq.trans (by decide +kernel) hplace)
  exact ⟨herror, hdetail, hviable⟩

end Runbook.Source
