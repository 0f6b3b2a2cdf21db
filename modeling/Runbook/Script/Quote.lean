/-
  Writing a text as a word, and reading a quoted one.

  `quote` leaves a text bare when it can stand so, and otherwise puts it between
  double quotes with a backslash before each backslash and double quote;
  `unescape` drops the backslash of every pair.

  * `unescape_escape`: reading back what was escaped gives the text;
  * `splitDelimited_escape`: an escaped text ends at its closing quote, not before.
-/
import Runbook.Source.Reader

namespace Runbook.Script

open Source (Word)

/-- Writes a backslash before each backslash and double quote. -/
def escape : List Char → List Char
  | [] => []
  | c :: cs => if c = '\\' ∨ c = '"' then '\\' :: c :: escape cs else c :: escape cs

/-- Drops the backslash of every pair of a backslash and a character. -/
def unescape : List Char → List Char
  | '\\' :: c :: cs => c :: unescape cs
  | c :: cs => c :: unescape cs
  | [] => []

/-- Whether a text can stand bare where a word is read: it has characters, all of them those of a
bare word, and begins neither a quoted text nor a comment. -/
def canStandBare (s : List Char) : Bool :=
  !s.isEmpty && !(['"'].isPrefixOf s) && !(['/', '/'].isPrefixOf s) && s.all Source.isBareChar

/-- The word that stands for a text. -/
def wordFor (s : List Char) : Word :=
  if canStandBare s then .bare s else .quoted (escape s)

/-- A text as it is written in a program. -/
def quote (s : String) : String := String.ofList (wordFor s.toList).text

theorem unescape_escape (s : List Char) : unescape (escape s) = s := by
  induction s with
  | nil => rfl
  | cons c cs ih =>
    by_cases h : c = '\\' ∨ c = '"'
    · simp [escape, h, unescape, ih]
    · have hc : c ≠ '\\' := fun e => h (.inl e)
      simp only [escape, h, if_false]
      rw [unescape, ih]
      rintro d ds ⟨⟩
      exact absurd rfl hc

theorem splitDelimited_escape (s rest : List Char) :
    Text.splitDelimited '"' (escape s ++ '"' :: rest) = some (escape s, rest) := by
  induction s with
  | nil => rfl
  | cons c cs ih =>
    by_cases h : c = '\\' ∨ c = '"'
    · simp [escape, h, Text.splitDelimited, ih]
    · have h₁ : c ≠ '"' := fun e => h (.inr e)
      have h₂ : c ≠ '\\' := fun e => h (.inl e)
      simp only [escape, h, if_false, List.cons_append]
      rw [Text.splitDelimited, if_neg h₁, ih]
      · rfl
      · rintro d ds rfl
        exact absurd rfl h₂

end Runbook.Script
