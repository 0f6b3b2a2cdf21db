/-
  Where reading fails.

  A reader that fails leaves an end of the text that it was given.

  * `Word.suffix_of_read`, …, `Program.suffix_of_read`: what is left by each reader;
  * `Failure.locate_eq`: so the error stands after what was read, and names the
    character there;
  * `Failure.locate_newline`: **lines in front of the source move the error down by
    their number**.
-/
import Runbook.Proofs.Source.Location
import Runbook.Source.Reader

namespace Runbook.Source

/-- A reading in two steps fails in the first or in the second. -/
theorem error_of_bind {α β : Type} {x : Except Failure α} {k : α → Except Failure β} {f : Failure}
    (h : (x >>= k) = .error f) : x = .error f ∨ ∃ a, x = .ok a ∧ k a = .error f := by
  cases x with
  | error e => cases h; exact .inl rfl
  | ok a => exact .inr ⟨a, rfl, h⟩

theorem splitLayout_suffix (cs : List Char) : (splitLayout cs).2 <:+ cs :=
  ⟨_, splitLayout_append cs⟩

section
variable {cs : List Char} {f : Failure}

/-- A word fails after its `$`, or where it begins. -/
theorem Word.cases_of_read (h : Word.read cs = .error f) : cs = '$' :: f.rest ∨ cs = f.rest := by
  unfold Word.read at h
  split at h
  · split at h
    · cases h; exact .inl rfl
    · cases h
  · split at h
    · cases h; exact .inr rfl
    · cases h
  · split at h <;> cases h

theorem Word.suffix_of_read (h : Word.read cs = .error f) : f.rest <:+ cs := by
  rcases Word.cases_of_read h with rfl | rfl
  · exact List.suffix_cons _ _
  · exact List.suffix_refl _

theorem Argument.suffix_of_readNamed (h : Argument.readNamed cs = .error f) : f.rest <:+ cs := by
  unfold Argument.readNamed at h
  split at h
  · cases h
  · next r hr _ =>
    have hsuffix : r <:+ cs := (List.suffix_cons ':' r).trans (hr ▸ List.dropWhile_suffix _)
    rcases error_of_bind h with hw | ⟨o, -, h⟩
    · exact (Word.suffix_of_read hw).trans hsuffix
    · cases o <;> cases h
  · cases h

theorem Argument.suffix_of_read (h : Argument.read cs = .error f) : f.rest <:+ cs := by
  rcases error_of_bind h with hn | ⟨_ | p, -, h⟩
  · exact Argument.suffix_of_readNamed hn
  · rcases error_of_bind h with hw | ⟨_ | p, -, h⟩
    · exact Word.suffix_of_read hw
    · cases h; exact List.suffix_refl _
    · cases h
  · cases h

theorem suffix_of_readArguments (h : readArguments cs = .error f) : f.rest <:+ cs := by
  fun_induction readArguments cs with
  | case1 => cases h
  | case2 => cases h
  | case3 cs layout c cs' _ hs e ha =>
    cases h
    have hsuffix := splitLayout_suffix cs
    rw [hs] at hsuffix
    exact (Argument.suffix_of_read ha).trans hsuffix
  | case4 cs layout c cs' _ hs a r ha _ e hr ih =>
    cases h
    have hsuffix := splitLayout_suffix cs
    rw [hs] at hsuffix
    have hread : r <:+ c :: cs' := ⟨_, (Argument.text_append_of_read ha).1⟩
    exact ((ih hr).trans hread).trans hsuffix
  | case5 => cases h

/-- Where a character is expected and fails, there is another one, or none. -/
theorem rest_of_expect {c : Char} {e : Expected} (h : expect c e cs = .error f) :
    cs = f.rest ∧ cs.head? ≠ some c := by
  cases cs with
  | nil => cases h; simp
  | cons d cs =>
    by_cases hd : d = c
    · simp [expect, hd] at h
    · rw [expect, if_neg hd] at h
      cases h
      simp [hd]

theorem suffix_of_expect {c : Char} {e : Expected} (h : expect c e cs = .error f) :
    f.rest <:+ cs :=
  (rest_of_expect h).1 ▸ List.suffix_refl _

theorem Call.suffix_of_read (h : Call.read cs = .error f) : f.rest <:+ cs := by
  rcases error_of_bind h with h₁ | ⟨r, h₁, h⟩
  · exact suffix_of_expect h₁
  have hr : (splitLayout r).2 <:+ cs := (splitLayout_suffix r).trans ⟨['('], cons_of_expect h₁⟩
  dsimp only at h
  split at h
  · cases h; exact hr
  have hd := (List.dropWhile_suffix isCommandChar).trans hr
  rcases error_of_bind h with h₂ | ⟨⟨arguments, closing, r₂⟩, h₂, h⟩
  · exact (suffix_of_readArguments h₂).trans hd
  have hr₂ : r₂ <:+ cs := by
    refine List.IsSuffix.trans ⟨argumentsText arguments ++ closing, ?_⟩ hd
    rw [List.append_assoc, readArguments_text h₂]
  rcases error_of_bind h with h₃ | ⟨r₃, -, h⟩
  · exact (suffix_of_expect h₃).trans hr₂
  · cases h

theorem Statement.suffix_of_read (h : Statement.read cs = .error f) : f.rest <:+ cs := by
  unfold Statement.read at h
  dsimp only at h
  split at h
  · rcases error_of_bind h with hc | ⟨p, -, h⟩
    · exact Call.suffix_of_read hc
    · cases h
  split at h
  · cases h; exact List.suffix_refl _
  have hd := List.dropWhile_suffix (l := cs) isNameChar
  rcases error_of_bind h with h₁ | ⟨r, h₁, h⟩
  · exact (suffix_of_expect h₁).trans hd
  have hr : r <:+ cs := List.IsSuffix.trans ⟨[':'], cons_of_expect h₁⟩ hd
  rcases error_of_bind h with h₂ | ⟨p, -, h⟩
  · exact (Call.suffix_of_read h₂).trans ((splitLayout_suffix r).trans hr)
  · cases h

theorem suffix_of_readStatements (h : readStatements cs = .error f) : f.rest <:+ cs := by
  fun_induction readStatements cs with
  | case1 => cases h
  | case2 c cs e hs => cases h; exact Statement.suffix_of_read hs
  | case3 c cs s rest hs _ e hr ih =>
    cases h
    have hrest : rest <:+ c :: cs := ⟨_, Statement.text_append_of_read hs⟩
    exact (ih hr).trans ((splitLayout_suffix rest).trans hrest)
  | case4 => cases h

theorem Program.suffix_of_read (h : Program.read cs = .error f) : f.rest <:+ cs := by
  unfold Program.read at h
  cases hs : readStatements (splitLayout cs).2 with
  | ok statements => rw [hs] at h; cases h
  | error e =>
    rw [hs] at h
    cases h
    exact (suffix_of_readStatements hs).trans (splitLayout_suffix cs)

end

/-! ## The place of the error -/

/-- The error stands after what was read. -/
theorem Failure.locate_eq (f : Failure) (before : List Char) : f.locate (before ++ f.rest) =
    ⟨f.expected, f.rest.head?, Location.start.after before⟩ := by
  have hoffset : (before ++ f.rest).length - f.rest.length = before.length := by simp
  rw [locate, hoffset, Location.ofOffset_length]

/-- **Lines in front of the source move an error down by their number**, and not sideways. -/
theorem Failure.locate_newline {f : Failure} {source : List Char} (h : f.rest <:+ source)
    (lines : List Char) : f.locate (lines ++ '\n' :: source) =
      { f.locate source with location :=
        ⟨(f.locate source).location.line + (lines.count '\n' + 1),
          (f.locate source).location.column⟩ } := by
  obtain ⟨before, rfl⟩ := h
  have hstart : Location.start.after (lines ++ ['\n']) =
      ⟨Location.start.line + (lines.count '\n' + 1), Location.start.column⟩ := by
    rw [Location.after_newline, Nat.add_assoc]
    rfl
  have happend : lines ++ '\n' :: (before ++ f.rest) = (lines ++ ['\n'] ++ before) ++ f.rest := by
    simp
  rw [happend, locate_eq, locate_eq, Location.after_append, hstart, Location.after_shift]

end Runbook.Source
