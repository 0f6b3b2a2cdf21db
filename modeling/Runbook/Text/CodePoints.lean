/-
  Texts with surrogates.

  The texts of a host are sequences of code points.  A surrogate is a code point
  but no character, so a text that holds one is no string of characters.
  `quotedPoints` shows such a text to a person, as `quoted` shows a string.
-/
import Runbook.Text.Quoted

namespace Runbook.Text

/-- A code point: a character or a surrogate. -/
abbrev CodePoint := Fin 0x110000

namespace CodePoint

/-- The code point of a character. -/
def ofChar (c : Char) : CodePoint :=
  ⟨c.toNat, by rcases c.valid with h | h <;> simp only [Char.toNat] <;> omega⟩

/-- The character of a code point that is no surrogate. -/
def char? (p : CodePoint) : Option Char :=
  if h : p.val.isValidChar then some (Char.ofNatAux p.val h) else none

end CodePoint

/-- Code points in a row are ordered as words are. -/
instance : LE (List CodePoint) := List.instLE

instance : DecidableLE (List CodePoint) := fun a b => List.decidableLE a b

/-- The code points of a string. -/
def codePoints (s : String) : List CodePoint := s.toList.map .ofChar

/-- The 16-bit units of a code point: one, or two if it needs more bits. -/
def units (n : Nat) : List Nat :=
  if n < 0x10000 then [n]
  else [0xD800 + (n - 0x10000) / 0x400, 0xDC00 + (n - 0x10000) % 0x400]

/-- A code point as it stands between quotes; a surrogate is written as an escape. -/
def escapePoint (quote : Char) (p : CodePoint) : List Char :=
  match p.char? with
  | some c => escapeChar quote c
  | none => '\\' :: 'u' :: hexDigits 4 p.val

/-- Code points between quotes, with escapes. -/
def quotedPoints (ps : List CodePoint) : String :=
  let q := quoteFor (ps.filterMap CodePoint.char?)
  String.ofList (q :: ps.flatMap (escapePoint q) ++ [q])

end Runbook.Text
