/-
  Values as they are shown to a person.

  Texts are quoted, the other leaves and the brackets are spelled as in the
  printed output of a host: `None`, `True`, `[1, 'a']`, `(1,)`.
-/
import Runbook.Json.Printer
import Runbook.Value.Basic

namespace Runbook

open Texts (ofString)

variable {τ φ : Type} [Texts τ]

/-- The name of a truth value. -/
def displayBool (b : Bool) : String := if b then "True" else "False"

/-- Texts separated by commas. -/
def commas : List τ → τ
  | [] => ofString ""
  | [item] => item
  | item :: items => item ++ ofString ", " ++ commas items

/-- A tuple of displayed items; a single one is followed by a comma. -/
def displayTuple : List τ → τ
  | [item] => ofString "(" ++ item ++ ofString ",)"
  | items => ofString "(" ++ commas items ++ ofString ")"

/-- A map, in braces. -/
def displayBraces (entries : List (τ × τ)) : τ :=
  ofString "\x7b" ++ commas (entries.map fun (k, v) => k ++ ofString ": " ++ v) ++ ofString "\x7d"

/-- Named fields in parentheses, after the name of what has them. -/
def displayFields (name : String) (fields : List (τ × τ)) : τ :=
  ofString (name ++ "(") ++ commas (fields.map fun (k, v) => k ++ ofString "=" ++ v) ++ ofString ")"

mutual

/-- A key on display. -/
def Key.display : Key τ → τ
  | null => ofString "None"
  | bool b => ofString (displayBool b)
  | int i => ofString (toString i)
  | float x => ofString (Decimal.written .display x)
  | str s => ofString (Texts.quoted s)
  | bytes bs => ofString (Text.quotedBytes bs)
  | tuple items => displayTuple (Key.displayAll items)
  | token text => text

/-- Every key on display. -/
def Key.displayAll : List (Key τ) → List τ
  | [] => []
  | k :: ks => k.display :: Key.displayAll ks

end

mutual

/-- A value on display. -/
def Value.display : Value τ φ → τ
  | null => ofString "None"
  | bool b => ofString (displayBool b)
  | int i => ofString (toString i)
  | float x => ofString (Decimal.written .display x)
  | str s => ofString (Texts.quoted s)
  | list items => ofString "[" ++ commas (Value.displayAll items) ++ ofString "]"
  | tuple items => displayTuple (Value.displayAll items)
  | map entries => displayBraces (Value.displayEntries entries)
  | view _ entries =>
    ofString "mappingproxy(" ++ displayBraces (Value.displayEntries entries) ++ ofString ")"
  | record name fields | model name fields => displayFields name (Value.displayNamed fields)
  | bytes bs => ofString (Text.quotedBytes bs)
  | token text => text

/-- Every value on display. -/
def Value.displayAll : List (Value τ φ) → List τ
  | [] => []
  | v :: vs => v.display :: Value.displayAll vs

/-- Every entry on display. -/
def Value.displayEntries : List (Key τ × Value τ φ) → List (τ × τ)
  | [] => []
  | (k, v) :: entries => (k.display, v.display) :: Value.displayEntries entries

/-- Every field on display. -/
def Value.displayNamed : List (τ × Value τ φ) → List (τ × τ)
  | [] => []
  | (k, v) :: fields => (k, v.display) :: Value.displayNamed fields

end

end Runbook
