/-
  Words in a text: where they end, and which of them are read.

  A word stands before a text if, read there, it ends where it does: the name of a
  reference and a bare text do not go on, and the body of a quoted text holds no
  quote and no backslash but in pairs.

  * `splitDelimited_eq_some_iff`: **a quoted text ends at its first unpaired quote**;
  * `Word.read_text` and `Word.stands_of_read`: the words that are read are those
    that stand before what is left;
  * `Word.read_eq_none_iff`: where no word begins.
-/
import Runbook.Proofs.Source.Longest
import Runbook.Source.Reader

namespace Runbook

namespace Text

/-- The bodies of quoted texts: characters other than the quote and the backslash, and pairs of a
backslash and any character. -/
inductive Body (quote : Char) : List Char → Prop
  | nil : Body quote []
  | pair {t : List Char} (c : Char) : Body quote t → Body quote ('\\' :: c :: t)
  | plain {c : Char} {t : List Char} : c ≠ quote → c ≠ '\\' → Body quote t → Body quote (c :: t)

theorem splitDelimited_cons {quote c : Char} (hc : c ≠ '\\') (cs : List Char) :
    splitDelimited quote (c :: cs) =
      if c = quote then some ([], cs)
      else (splitDelimited quote cs).map fun (body, rest) => (c :: body, rest) := by
  rw [splitDelimited]
  rintro _ _ rfl
  exact absurd rfl hc

theorem splitDelimited_of_body {quote : Char} (hq : quote ≠ '\\') {body : List Char}
    (h : Body quote body) (rest : List Char) :
    splitDelimited quote (body ++ quote :: rest) = some (body, rest) := by
  induction h with
  | nil => rw [List.nil_append, splitDelimited_cons hq, if_pos rfl]
  | pair c _ ih => simp [splitDelimited, ih]
  | plain hc hb _ ih => rw [List.cons_append, splitDelimited_cons hb, if_neg hc, ih]; rfl

theorem body_of_splitDelimited {quote : Char} {cs body rest : List Char}
    (h : splitDelimited quote cs = some (body, rest)) : Body quote body := by
  fun_induction splitDelimited quote cs generalizing body rest with
  | case1 => cases h
  | case2 c cs ih =>
    obtain ⟨⟨b, r⟩, hb, e⟩ := Option.map_eq_some_iff.1 h
    cases e
    exact .pair c (ih hb)
  | case3 => cases h; exact .nil
  | case4 c cs hpair hc ih =>
    obtain ⟨⟨b, r⟩, hb, e⟩ := Option.map_eq_some_iff.1 h
    cases e
    refine .plain hc ?_ (ih hb)
    rintro rfl
    -- a backslash that pairs with nothing ends the text, and so does not belong to a body
    cases cs with
    | nil => cases hb
    | cons d ds => exact hpair d ds rfl rfl

/-- **A quoted text ends at its first unpaired quote.** -/
theorem splitDelimited_eq_some_iff {quote : Char} (hq : quote ≠ '\\') {cs body rest : List Char} :
    splitDelimited quote cs = some (body, rest) ↔ Body quote body ∧ body ++ quote :: rest = cs := by
  constructor
  · exact fun h => ⟨body_of_splitDelimited h, splitDelimited_append h⟩
  · rintro ⟨h, rfl⟩
    exact splitDelimited_of_body hq h rest

end Text

namespace Source

/-- A word stands before a text if it ends there. -/
def Word.Stands (rest : List Char) : Word → Prop
  | reference name => Longest (Run isNameChar) name rest
  | quoted body => Text.Body '"' body
  | bare text => Longest (Run isBareChar) text rest ∧ text.head? ≠ some '"'

theorem Word.read_bare {c : Char} (h₁ : c ≠ '$') (h₂ : c ≠ '"') (cs : List Char) :
    Word.read (c :: cs) =
      match (c :: cs).takeWhile isBareChar with
      | [] => .ok none
      | text => .ok (some (.bare text, (c :: cs).dropWhile isBareChar)) := by
  unfold Word.read
  split
  · next h => exact absurd (List.cons.inj h).1 h₁
  · next h => exact absurd (List.cons.inj h).1 h₂
  · rfl

/-- A word that stands before a text is read there. -/
theorem Word.read_text {w : Word} {rest : List Char} (h : w.Stands rest) :
    Word.read (w.text ++ rest) = .ok (some (w, rest)) := by
  cases w with
  | reference name =>
    obtain ⟨ht, hd⟩ := takeWhile_of_longest h
    obtain ⟨c, cs, rfl⟩ := List.exists_cons_of_ne_nil h.1.1
    simp only [Word.text, List.cons_append] at ht hd ⊢
    simp only [Word.read, ht, hd]
  | quoted body =>
    have hs := Text.splitDelimited_of_body (by decide) h rest
    simp only [Word.text, List.cons_append, List.append_assoc, List.nil_append, Word.read, hs]
  | bare text =>
    obtain ⟨ht, hd⟩ := takeWhile_of_longest h.1
    obtain ⟨c, cs, rfl⟩ := List.exists_cons_of_ne_nil h.1.1.1
    have hc : c ≠ '$' := by
      rintro rfl
      exact absurd (h.1.1.2 '$' (by simp)) (by decide)
    have hq : c ≠ '"' := fun e => h.2 (by simp [e])
    simp only [Word.text, List.cons_append] at ht hd ⊢
    rw [Word.read_bare hc hq, ht, hd]

/-- A word that is read stands before what is left. -/
theorem Word.stands_of_read {cs rest : List Char} {w : Word}
    (h : Word.read cs = .ok (some (w, rest))) : w.Stands rest := by
  unfold Word.read at h
  split at h
  · split at h
    · cases h
    · next hne => cases h; exact longest_of_takeWhile hne
  · split at h
    · cases h
    · next hs => cases h; exact Text.body_of_splitDelimited hs
  · next cs _ hq =>
    split at h
    · cases h
    · next hne =>
      cases h
      refine ⟨longest_of_takeWhile hne, fun hh => ?_⟩
      rw [List.head?_takeWhile] at hh
      obtain ⟨r, rfl⟩ := List.head?_eq_some_iff.1 (Option.filter_eq_some_iff.1 hh).1
      exact hq r rfl

/-- No word begins at the end of a text, at a blank, or at a colon or a parenthesis. -/
theorem Word.read_eq_none_iff {cs : List Char} :
    Word.read cs = .ok none ↔ ∀ c ∈ cs.head?, c ≠ '$' ∧ isBareChar c = false := by
  cases cs with
  | nil => simp [Word.read]
  | cons c cs =>
    by_cases h₁ : c = '$'
    · subst h₁
      simp only [Word.read]
      split <;> simp
    · by_cases h₂ : c = '"'
      · subst h₂
        simp only [Word.read]
        split <;> simp [isBareChar, isBlank]
      · rw [Word.read_bare h₁ h₂]
        cases hc : isBareChar c <;> simp [hc, h₁]

/-- A word that stands somewhere begins with `$`, a quote or a character of a bare word. -/
theorem Word.exists_cons_text {w : Word} {rest : List Char} (h : w.Stands rest) :
    ∃ c cs, w.text = c :: cs ∧ (c = '$' ∨ isBareChar c = true) := by
  cases w with
  | reference name => exact ⟨'$', name, rfl, Or.inl rfl⟩
  | quoted body => exact ⟨'"', body ++ ['"'], rfl, Or.inr rfl⟩
  | bare text =>
    obtain ⟨c, cs, rfl⟩ := List.exists_cons_of_ne_nil h.1.1.1
    exact ⟨c, cs, rfl, Or.inr (h.1.1.2 c (by simp))⟩

end Source

end Runbook
