/-
  Writing JSON documents.

  A `Style` says how texts are spelled, what stands between items, after a key, and
  how far items are indented on lines of their own.  The styles in use are `compact`
  (argument texts), `line` (log lines), `document` (printed programs and bindings)
  and `summary` (logged timings).
-/
import Runbook.Decimal.Written
import Runbook.Json.Basic
import Runbook.Text.CodePoints

namespace Runbook

/-- A type of texts: they can be joined, shown between quotes and spelled in ASCII, and strings are
among them. -/
class Texts (τ : Type) extends Append τ where
  /-- A string as a text. -/
  ofString : String → τ
  /-- A text as it is shown to a person. -/
  quoted : τ → String
  /-- A text as it stands between the quotes of a JSON document in ASCII. -/
  escaped : τ → List Char

namespace Json

/-! ## Strings -/

/-- The escape of a 16-bit unit. -/
def escapeUnit (n : Nat) : List Char := '\\' :: 'u' :: Text.hexDigits 4 n

/-- The escapes of the units of a character. -/
def escapeUnits (c : Char) : List Char := (Text.units c.toNat).flatMap escapeUnit

/-- One character of a string. -/
def escapeChar (ascii : Bool) (c : Char) : List Char :=
  if c = '"' ∨ c = '\\' then ['\\', c]
  else if c = '\n' then ['\\', 'n']
  else if c = '\r' then ['\\', 'r']
  else if c = '\t' then ['\\', 't']
  else if c = '\x0c' then ['\\', 'f']
  else if c = '\x08' then ['\\', 'b']
  else if c.toNat < 0x20 ∨ ascii = true ∧ 0x7E < c.toNat then escapeUnits c
  else [c]

/-- The characters of a string. -/
def escapeString (ascii : Bool) (s : String) : List Char := s.toList.flatMap (escapeChar ascii)

/-- A code point of a text, in ASCII. -/
def escapePoint (p : Text.CodePoint) : List Char :=
  match p.char? with
  | some c => escapeChar true c
  | none => escapeUnit p.val

end Json

instance : Texts String where
  ofString := id
  quoted := Text.quoted
  escaped := Json.escapeString true

instance : Texts (List Text.CodePoint) where
  ofString := Text.codePoints
  quoted := Text.quotedPoints
  escaped := List.flatMap Json.escapePoint

namespace Json

/-! ## Styles -/

/-- How a document is laid out. -/
structure Style (τ : Type := String) where
  spell : τ → List Char
  betweenItems : String
  afterKey : String
  indent : Option Nat

/-- No layout at all; ASCII only. -/
def Style.compact {τ : Type} [Texts τ] : Style τ := ⟨Texts.escaped, ",", ":", none⟩

/-- One line with spaces after commas and colons; all characters as they are. -/
def Style.line : Style := ⟨escapeString false, ", ", ": ", none⟩

/-- Items on lines of their own, indented by two; all characters as they are. -/
def Style.document : Style := ⟨escapeString false, ",", ": ", some 2⟩

/-- Items on lines of their own, indented by two; ASCII only. -/
def Style.summary : Style := ⟨escapeString true, ",", ": ", some 2⟩

/-! ## Documents -/

variable {τ : Type}

/-- A text in double quotes. -/
def writeText (style : Style τ) (s : τ) : List Char := '"' :: (style.spell s ++ ['"'])

/-- The line end and indentation before an item at a depth; nothing on one line. -/
def newline (style : Style τ) (depth : Nat) : List Char :=
  match style.indent with
  | none => []
  | some width => '\n' :: List.replicate (width * depth) ' '

/-- Written items between brackets, which stand at a depth. -/
def bracket (style : Style τ) (depth : Nat) (left right : Char) (items : List (List Char)) :
    List Char :=
  if items.isEmpty then [left, right]
  else
    let separator := style.betweenItems.toList ++ newline style (depth + 1)
    left :: (newline style (depth + 1) ++ separator.intercalate items ++
      newline style depth ++ [right])

mutual

/-- A document in writing, where its brackets stand at a depth. -/
def writeAt (style : Style τ) (depth : Nat) : Json τ → List Char
  | null => "null".toList
  | bool b => (if b then "true" else "false").toList
  | int i => (toString i).toList
  | float x => (Decimal.written .json x).toList
  | str s => writeText style s
  | arr items => bracket style depth '[' ']' (writeItems style (depth + 1) items)
  | obj fields => bracket style depth '{' '}' (writeFields style (depth + 1) fields)

/-- Every item in writing. -/
def writeItems (style : Style τ) (depth : Nat) : List (Json τ) → List (List Char)
  | [] => []
  | j :: js => writeAt style depth j :: writeItems style depth js

/-- Every field in writing. -/
def writeFields (style : Style τ) (depth : Nat) : List (τ × Json τ) → List (List Char)
  | [] => []
  | (k, j) :: fields =>
    (writeText style k ++ style.afterKey.toList ++ writeAt style depth j) ::
      writeFields style depth fields

end

/-- A document in writing. -/
def write (style : Style τ) (j : Json τ) : String := String.ofList (writeAt style 0 j)

end Json

end Runbook
