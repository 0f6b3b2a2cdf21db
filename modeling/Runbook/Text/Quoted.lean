/-
  Text between quotes, as it is shown to a person.

  `quoted s` writes `s` between single quotes, or between double quotes when
  `s` holds a single quote and no double one.  The chosen quote, the backslash
  and the characters that do not print are written as escapes; `escapeChar`
  gives the escape of one character.
-/
import Runbook.Text.Printable

namespace Runbook.Text

/-! ## Hexadecimal digits -/

/-- The lower-case hexadecimal digit of a number below sixteen. -/
def hexDigit (n : Nat) : Char :=
  if n < 10 then Char.ofNat (48 + n) else Char.ofNat (87 + n)

/-- The lowest `width` hexadecimal digits of `n`, the highest first. -/
def hexDigits : (width : Nat) → (n : Nat) → List Char
  | 0, _ => []
  | width + 1, n => hexDigits width (n / 16) ++ [hexDigit (n % 16)]

/-! ## Quoting -/

/-- The numeric escape of a character: two, four or eight digits, as many as it needs. -/
def escapeCode (c : Char) : List Char :=
  if c.toNat < 0x100 then '\\' :: 'x' :: hexDigits 2 c.toNat
  else if c.toNat < 0x10000 then '\\' :: 'u' :: hexDigits 4 c.toNat
  else '\\' :: 'U' :: hexDigits 8 c.toNat

/-- One character as it stands inside the quotes. -/
def escapeChar (quote c : Char) : List Char :=
  if c = quote ∨ c = '\\' then ['\\', c]
  else if c = '\n' then ['\\', 'n']
  else if c = '\r' then ['\\', 'r']
  else if c = '\t' then ['\\', 't']
  else if isPrintable c then [c]
  else escapeCode c

/-- The quote for a text: single, unless that alone occurs in it. -/
def quoteFor (s : List Char) : Char :=
  if '\'' ∈ s ∧ '"' ∉ s then '"' else '\''

/-- A text between quotes, with escapes. -/
def quoted (s : String) : String :=
  let q := quoteFor s.toList
  String.ofList (q :: s.toList.flatMap (escapeChar q) ++ [q])

/-- Bytes between quotes after a `b`; all but printable ASCII is written as a two-digit escape. -/
def quotedBytes (bytes : List UInt8) : String :=
  let text := bytes.map fun b => Char.ofNat b.toNat
  let q := quoteFor text
  let one (c : Char) : List Char := if c.toNat < 0x7F then escapeChar q c else escapeCode c
  String.ofList ('b' :: q :: text.flatMap one ++ [q])

end Runbook.Text
