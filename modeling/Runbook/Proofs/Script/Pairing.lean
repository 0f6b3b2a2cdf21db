/-
  Backslashes in quoted texts, as they are paired.

  A quoted text is made of units: pairs of a backslash and the character after it, and
  single characters other than backslashes and quotes.  Where a pair begins can also be
  told from what stands before: a character is the second of a pair if the backslashes
  right before it are odd in number (`Escaped`).

  * `body_iff_spell` and `spell_inj`: the bodies of quoted texts are those that are
    spelled in units, and each is spelled in one way;
  * `unescape_spell`: reading escapes takes one character from every unit;
  * `not_escaped_append_spell` and `escaped_of_append_spell`: behind units no pair is
    open, and every quote among them is the second of a pair;
  * `readArguments_quoted`: the next argument may begin right after a closing quote;
  * `quoted_paired`: **the reader of words and `unescape` pair backslashes alike.**
-/
import Runbook.Proofs.Script.RoundTrip

namespace Runbook.Script

open Source (Word Layout Longest Run readArguments isNameChar longest_nil_of_ne longest_nil_name
  longest_layout_iff run_isCommandChar)

/-! ## Units -/

/-- A unit of a quoted text: a backslash with the character after it, or a single character. -/
inductive QuotedUnit where
  | pair (c : Char)
  | single (c : Char) (plain : c ≠ '\\' ∧ c ≠ '"')

namespace QuotedUnit

/-- A unit as it is written. -/
def text : QuotedUnit → List Char
  | pair c => ['\\', c]
  | single c _ => [c]

/-- The character that a unit stands for: that of a pair is the one after its backslash. -/
def char : QuotedUnit → Char
  | pair c => c
  | single c _ => c

/-- Units in a row. -/
def spell (units : List QuotedUnit) : List Char := units.flatMap text

theorem spell_pair (c : Char) (units : List QuotedUnit) :
    spell (pair c :: units) = '\\' :: c :: spell units := rfl

theorem spell_single {c : Char} (hc : c ≠ '\\' ∧ c ≠ '"') (units : List QuotedUnit) :
    spell (single c hc :: units) = c :: spell units := rfl

/-- The first unit of a text is known by its characters. -/
theorem text_append_inj {u v : QuotedUnit} {s t : List Char} (h : u.text ++ s = v.text ++ t) :
    u = v ∧ s = t := by
  cases u with
  | pair c =>
    cases v with
    | pair d => simpa [text] using h
    | single d hd => exact absurd (List.cons.inj h).1.symm hd.1
  | single c hc =>
    cases v with
    | pair d => exact absurd (List.cons.inj h).1 hc.1
    | single d hd => simpa [text] using h

/-- A text is spelled in one way only. -/
theorem spell_inj {us vs : List QuotedUnit} (h : spell us = spell vs) : us = vs := by
  induction us generalizing vs with
  | nil =>
    cases vs with
    | nil => rfl
    | cons v vs => cases v <;> cases h
  | cons u us ih =>
    cases vs with
    | nil => cases u <;> cases h
    | cons v vs =>
      obtain ⟨huv, hspell⟩ := text_append_inj (s := spell us) (t := spell vs) h
      rw [huv, ih hspell]

/-- The bodies of quoted texts are the texts that are spelled in units. -/
theorem body_iff_spell {body : List Char} :
    Text.Body '"' body ↔ ∃ units : List QuotedUnit, spell units = body := by
  constructor
  · intro h
    induction h with
    | nil => exact ⟨[], rfl⟩
    | pair c _ ih =>
      obtain ⟨units, rfl⟩ := ih
      exact ⟨pair c :: units, rfl⟩
    | @plain c _ hquote hbackslash _ ih =>
      obtain ⟨units, rfl⟩ := ih
      exact ⟨single c ⟨hbackslash, hquote⟩ :: units, rfl⟩
  · rintro ⟨units, rfl⟩
    induction units with
    | nil => exact .nil
    | cons u units ih =>
      cases u with
      | pair c => exact .pair c ih
      | single c hc => exact .plain hc.2 hc.1 ih

/-- Reading escapes drops the backslash of every pair and nothing else. -/
theorem unescape_spell (units : List QuotedUnit) : unescape (spell units) = units.map char := by
  induction units with
  | nil => rfl
  | cons u units ih =>
    cases u with
    | pair c => rw [spell_pair, unescape, ih]; rfl
    | single c hc =>
      rw [spell_single, unescape, ih]
      · rfl
      · rintro d ds ⟨⟩
        exact absurd rfl hc.1

end QuotedUnit

open QuotedUnit (spell spell_inj body_iff_spell unescape_spell)

/-! ## What stands before a character -/

/-- The character after a text would be the second of a pair: the text ends in an odd number of
backslashes. -/
def Escaped (before : List Char) : Prop := (before.reverse.takeWhile (· = '\\')).length % 2 = 1

theorem not_escaped_nil : ¬ Escaped [] := by simp [Escaped]

/-- A backslash escapes the next character unless it is escaped itself. -/
theorem escaped_concat (before : List Char) (c : Char) :
    Escaped (before ++ [c]) ↔ c = '\\' ∧ ¬ Escaped before := by
  unfold Escaped
  by_cases hc : c = '\\'
  · simp only [hc, List.reverse_append, List.reverse_singleton, List.singleton_append,
      List.takeWhile_cons, decide_true, if_true, List.length_cons, true_and]
    omega
  · simp [hc]

/-- Behind units no pair is open. -/
theorem not_escaped_append_spell {before : List Char} (h : ¬ Escaped before)
    (units : List QuotedUnit) : ¬ Escaped (before ++ spell units) := by
  induction units generalizing before with
  | nil => simpa [spell] using h
  | cons u units ih =>
    cases u with
    | pair c =>
      have hpair : ¬ Escaped (before ++ ['\\'] ++ [c]) := by
        rw [escaped_concat, escaped_concat]
        exact fun hc => hc.2 ⟨rfl, h⟩
      simpa [QuotedUnit.spell_pair] using ih hpair
    | single c hc =>
      have hsingle : ¬ Escaped (before ++ [c]) := by
        rw [escaped_concat]
        exact fun h => hc.1 h.1
      simpa [QuotedUnit.spell_single] using ih hsingle

/-- A quote among units is the second of a pair. -/
theorem escaped_of_append_spell {before start after : List Char} {units : List QuotedUnit}
    (h : ¬ Escaped before) (hspell : spell units = start ++ '"' :: after) :
    Escaped (before ++ start) := by
  induction units generalizing before start with
  | nil => simp [spell] at hspell
  | cons u units ih =>
    cases u with
    | pair c =>
      have hbackslash : Escaped (before ++ ['\\']) := (escaped_concat ..).2 ⟨rfl, h⟩
      rw [QuotedUnit.spell_pair] at hspell
      rcases start with _ | ⟨a, _ | ⟨b, start⟩⟩
      · simp at hspell
      · simp only [List.cons_append, List.cons.injEq] at hspell
        rw [← hspell.1]
        exact hbackslash
      · simp only [List.cons_append, List.cons.injEq] at hspell
        obtain ⟨rfl, rfl, hspell⟩ := hspell
        have hpair : ¬ Escaped (before ++ ['\\'] ++ [c]) :=
          fun hc => ((escaped_concat ..).1 hc).2 hbackslash
        simpa using ih hpair hspell
    | single c hc =>
      rw [QuotedUnit.spell_single] at hspell
      cases start with
      | nil => exact absurd (List.cons.inj hspell).1 hc.2
      | cons a start =>
        simp only [List.cons_append, List.cons.injEq] at hspell
        obtain ⟨rfl, hspell⟩ := hspell
        have hsingle : ¬ Escaped (before ++ [c]) := fun h => hc.1 ((escaped_concat ..).1 h).1
        simpa using ih hsingle hspell

/-! ## Quoted texts in a row -/

/-- An argument that ends in a quoted text is read up to the closing quote, whatever follows. -/
theorem read_quoted {key : Option (List Char)} (hk : ∀ name ∈ key, Run isNameChar name)
    {body : List Char} (hb : Text.Body '"' body) (rest : List Char) :
    Source.Argument.read ((⟨key, .quoted body⟩ : Source.Argument).text ++ rest) =
      .ok (⟨key, .quoted body⟩, rest) := by
  have hstands : (Word.quoted body).Stands rest := hb
  cases key with
  | none =>
    have hnamed : Source.Argument.readNamed ((Word.quoted body).text ++ rest) = .ok none := rfl
    simp only [Source.Argument.text, Source.Argument.read, hnamed, Word.read_text hstands, bind,
      Except.bind]
  | some name =>
    have hnamed := Source.Argument.readNamed_text (hk name rfl) hstands
    simp only [Source.Argument.text, Source.Argument.read, List.append_assoc, List.cons_append,
      hnamed, bind, Except.bind]

/-- An argument that ends in a quoted text is the first of those that are read there, and the next
one may begin right after the closing quote. -/
theorem readArguments_quoted {key : Option (List Char)} (hk : ∀ name ∈ key, Run isNameChar name)
    {body : List Char} (hb : Text.Body '"' body) (rest : List Char) :
    readArguments ((⟨key, .quoted body⟩ : Source.Argument).text ++ rest) =
      (readArguments rest).map fun (arguments, tail) =>
        (([], ⟨key, .quoted body⟩) :: arguments, tail) := by
  have hread := read_quoted hk hb rest
  have hlayout : Longest Layout [] ((⟨key, .quoted body⟩ : Source.Argument).text ++ rest) := by
    cases key with
    | none => exact longest_nil_of_ne rfl (by decide) (by decide) _
    | some name =>
      simp only [Source.Argument.text, List.append_assoc]
      exact longest_nil_name (run_isCommandChar (hk name rfl)) _
  have hbegin :
      ∃ c cs, (⟨key, .quoted body⟩ : Source.Argument).text ++ rest = c :: cs ∧ c ≠ ')' := by
    cases key with
    | none => exact ⟨'"', _, rfl, by decide⟩
    | some name =>
      obtain ⟨c, cs, rfl⟩ := List.exists_cons_of_ne_nil (hk name rfl).1
      refine ⟨c, _, rfl, ?_⟩
      rintro rfl
      exact absurd ((hk _ rfl).2 ')' List.mem_cons_self) (by decide)
  obtain ⟨c, cs, htext, hne⟩ := hbegin
  rw [htext] at hread hlayout ⊢
  have hsplit : Source.splitLayout (c :: cs) = ([], c :: cs) := longest_layout_iff.1 hlayout
  rw [Source.readArguments_next hsplit hne, hread]

/-- What a quoted text is read from. -/
theorem quoted_of_read {cs body rest : List Char}
    (h : Word.read cs = .ok (some (.quoted body, rest))) :
    Text.Body '"' body ∧ cs = '"' :: (body ++ '"' :: rest) := by
  refine ⟨Word.stands_of_read h, ?_⟩
  rw [← (Word.text_append_of_read h).1]
  simp [Word.text]

/-- **The reader of words and `unescape` pair backslashes alike.**  The body of every quoted text
that is read is spelled in units, in one way, and `unescape` takes from each unit its character,
which gives the value of the word.  The body ends in no unpaired backslash; its closing quote is the
first that is not the second of a pair; and another quoted text may follow right after that, whether
the first has a key or not. -/
theorem quoted_paired {cs body rest : List Char}
    (h : Word.read cs = .ok (some (.quoted body, rest))) :
    (∃ units : List QuotedUnit, spell units = body ∧ (∀ us, spell us = body → us = units) ∧
      unescape body = units.map QuotedUnit.char ∧
      Argument.ofWord (.quoted body) = .literal (String.ofList (units.map QuotedUnit.char))) ∧
    ¬ Escaped body ∧
    (cs = '"' :: (body ++ '"' :: rest) ∧
      ∀ before after, body = before ++ '"' :: after → Escaped before) ∧
    ∀ next body' rest', Word.read next = .ok (some (.quoted body', rest')) →
      ∀ key : Option (List Char), (∀ name ∈ key, Run isNameChar name) →
        readArguments ((⟨key, .quoted body⟩ : Source.Argument).text ++ next) =
          (readArguments rest').map fun (arguments, tail) =>
            (([], ⟨key, .quoted body⟩) :: ([], ⟨none, .quoted body'⟩) :: arguments, tail) := by
  obtain ⟨hbody, hcs⟩ := quoted_of_read h
  obtain ⟨units, hspell⟩ := body_iff_spell.1 hbody
  have hunescape : unescape body = units.map QuotedUnit.char := by rw [← hspell, unescape_spell]
  refine ⟨⟨units, hspell, fun us hus => spell_inj (hus.trans hspell.symm), hunescape, ?_⟩, ?_,
    ⟨hcs, ?_⟩, ?_⟩
  · rw [Argument.ofWord, hunescape]
  · simpa [hspell] using not_escaped_append_spell not_escaped_nil units
  · intro before after hquote
    simpa using escaped_of_append_spell not_escaped_nil (hspell.trans hquote)
  · intro next body' rest' hnext key hk
    obtain ⟨hbody', hnext⟩ := quoted_of_read hnext
    have hsecond : next = (⟨none, .quoted body'⟩ : Source.Argument).text ++ rest' := by
      simp [hnext, Source.Argument.text, Word.text]
    have hnone : ∀ name ∈ (none : Option (List Char)), Run isNameChar name := by simp
    rw [readArguments_quoted hk hbody, hsecond, readArguments_quoted hnone hbody']
    cases readArguments rest' <;> rfl

/-- Two quoted texts in a row: a backslash, and a quote. -/
def adjacent : List Char := "\"\\\\\"\"\\\"\")".toList

theorem quoted_paired_adjacent :
    Word.read adjacent = .ok (some (.quoted ['\\', '\\'], "\"\\\"\")".toList)) ∧
    (∃ units : List QuotedUnit, spell units = ['\\', '\\'] ∧
      unescape ['\\', '\\'] = units.map QuotedUnit.char) ∧
    ¬ Escaped ['\\', '\\'] ∧
    Word.read "\"\\\"\")".toList = .ok (some (.quoted ['\\', '"'], [')'])) ∧
    Run isNameChar ['k'] ∧ readArguments ("k:".toList ++ adjacent) =
      .ok ([([], ⟨some ['k'], .quoted ['\\', '\\']⟩), ([], ⟨none, .quoted ['\\', '"']⟩)],
        [], [')']) := by
  have hfirst : Word.read adjacent = .ok (some (.quoted ['\\', '\\'], "\"\\\"\")".toList)) := by
    decide +kernel
  have hsecond : Word.read "\"\\\"\")".toList = .ok (some (.quoted ['\\', '"'], [')'])) := by
    decide +kernel
  have hk : Run isNameChar ['k'] := by simp [Run, isNameChar]
  obtain ⟨⟨units, hspell, -, hunescape, -⟩, hend, -, hnext⟩ := quoted_paired hfirst
  have hread := hnext _ _ _ hsecond (some ['k']) (by rintro name ⟨⟩; exact hk)
  have hclosing : readArguments [')'] = .ok ([], [], [')']) := Source.readArguments_closing rfl
  rw [hclosing] at hread
  exact ⟨hfirst, ⟨units, hspell, hunescape⟩, hend, hsecond, hk, hread⟩

end Runbook.Script
