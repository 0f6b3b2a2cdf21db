/-
  The text of a value as an argument.

  A text is passed as it is; an opaque value by its own text; all else as
  compact JSON of its plain data, with sorted keys.  `Value.jsonWith` is the document
  of a value whose opaque leaves become strings in some way, and `Value.json` the one
  in which they become what is displayed of them.
-/
import Runbook.Value.Plain

namespace Runbook.Value

section

variable {τ φ : Type} [Texts τ]

mutual

/-- The JSON document of a value, in which an opaque leaf is the string that `leaf` gives. -/
def jsonWith (leaf : Value τ φ → τ) : Value τ φ → Json τ
  | null => .null
  | bool b => .bool b
  | int i => .int i
  | float x => .float x
  | str s => .str s
  | list items => .arr (jsonItems leaf items)
  | tuple items => .arr (jsonItems leaf items)
  | map entries => .obj (jsonEntries leaf entries)
  | view _ entries => .obj (jsonEntries leaf entries)
  | record _ fields => .obj (jsonFields leaf fields)
  | model _ fields => .obj (jsonFields leaf fields)
  | bytes bs => .str (leaf (bytes bs))
  | token text => .str (leaf (token text))

/-- The documents of items. -/
def jsonItems (leaf : Value τ φ → τ) : List (Value τ φ) → List (Json τ)
  | [] => []
  | v :: vs => jsonWith leaf v :: jsonItems leaf vs

/-- The fields of entries. -/
def jsonEntries (leaf : Value τ φ → τ) : List (Key τ × Value τ φ) → List (τ × Json τ)
  | [] => []
  | (k, v) :: entries => (k.text, jsonWith leaf v) :: jsonEntries leaf entries

/-- The fields of named values. -/
def jsonFields (leaf : Value τ φ → τ) : List (τ × Value τ φ) → List (τ × Json τ)
  | [] => []
  | (k, v) :: fields => (k, jsonWith leaf v) :: jsonFields leaf fields

end

/-- The JSON document of a value, with its opaque leaves on display. -/
def json (v : Value τ φ) : Json τ := v.jsonWith display

variable [DecidableEq τ] [LE τ] [DecidableLE τ]

/-- The text of plain data as an argument. -/
def plainText : Value τ φ → τ
  | str s => s
  | bytes bs => Texts.ofString (Text.quotedBytes bs)
  | token text => text
  | v => Texts.ofString (v.json.sortKeys.write .compact)

/-- The text of a value as an argument, or a refusal. -/
def stringify? (l : Library τ φ) : Value τ φ → Except φ τ
  | str s => .ok s
  | v => (v.plain? l).map plainText

end

/-- The text of a value as an argument. -/
def stringify (v : Value) : String := unrefused (v.stringify? .stock)

end Runbook.Value
