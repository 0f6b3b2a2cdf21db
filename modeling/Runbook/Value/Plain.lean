/-
  Values as plain data.

  `plain?` turns tuples into lists, and records, models and maps into maps whose
  keys are texts; of two keys with one text the later value counts, in the place of
  the earlier.  Opaque leaves stay.  A record is first copied with all that it
  holds, and the records in it become maps: its opaque leaves are replaced by
  copies, which need not have their texts, and what cannot be copied is refused.  A
  model becomes what a library dumps of it.

  `plain` is for values that refuse nothing, where copies have the texts of their
  originals.
-/
import Runbook.Table
import Runbook.Value.Display

namespace Runbook

open Texts (ofString)

/-- The text of a key: data as JSON has it, anything else as it is displayed. -/
def Key.text {τ : Type} [Texts τ] : Key τ → τ
  | str s => s
  | null => ofString "null"
  | bool b => ofString (if b then "true" else "false")
  | int i => ofString (toString i)
  | float x => ofString (Decimal.written .json x)
  | k => k.display

/-- What is left to libraries while a value is rendered. -/
structure Value.Library (τ : Type := String) (φ : Type := Empty) where
  /-- The text of the copy that is made of the token with a text. -/
  copy : τ → Except φ τ
  /-- The data that a model is dumped as, field by field. -/
  dump : String → List (τ × Value τ φ) → Except φ (List (τ × Json τ))

/-! ## Copies -/

section

variable {τ φ : Type} (l : Value.Library τ φ)

mutual

/-- A copy of a key. -/
def Key.copied : Key τ → Except φ (Key τ)
  | tuple items => (Key.copiedAll items).map tuple
  | token text => (l.copy text).map token
  | k => .ok k

/-- Copies of keys. -/
def Key.copiedAll : List (Key τ) → Except φ (List (Key τ))
  | [] => .ok []
  | k :: ks => do
    let k ← k.copied
    let ks ← Key.copiedAll ks
    .ok (k :: ks)

end

namespace Value

mutual

/-- A copy of a value; its records become maps if they are to be spread, except in models. -/
def copied (spread : Bool) : Value τ φ → Except φ (Value τ φ)
  | list items => (copiedItems spread items).map list
  | tuple items => (copiedItems spread items).map tuple
  | map entries => (copiedEntries spread entries).map map
  | view refusal _ => .error refusal
  | record name fields =>
    (copiedFields spread fields).map (if spread then object else record name)
  | model name fields => (copiedFields false fields).map (model name)
  | token text => (l.copy text).map token
  | v => .ok v

/-- Copies of items. -/
def copiedItems (spread : Bool) : List (Value τ φ) → Except φ (List (Value τ φ))
  | [] => .ok []
  | v :: vs => do
    let v ← copied spread v
    let vs ← copiedItems spread vs
    .ok (v :: vs)

/-- Copies of entries. -/
def copiedEntries (spread : Bool) :
    List (Key τ × Value τ φ) → Except φ (List (Key τ × Value τ φ))
  | [] => .ok []
  | (k, v) :: entries => do
    let k ← k.copied l
    let v ← copied spread v
    let entries ← copiedEntries spread entries
    .ok ((k, v) :: entries)

/-- Copies of fields. -/
def copiedFields (spread : Bool) : List (τ × Value τ φ) → Except φ (List (τ × Value τ φ))
  | [] => .ok []
  | (k, v) :: fields => do
    let v ← copied spread v
    let fields ← copiedFields spread fields
    .ok ((k, v) :: fields)

end

end Value

end

namespace Value

/-! ## Plain data -/

variable {τ φ : Type} [DecidableEq τ]

/-- A map of fields in which a repeated name keeps its first place and its last value. -/
def ofFields (fields : List (τ × Value τ φ)) : Value τ φ := object (Table.ofList fields).entries

mutual

/-- The value of a document. -/
def ofJson : Json τ → Value τ φ
  | .null => null
  | .bool b => bool b
  | .int i => int i
  | .float x => float x
  | .str s => str s
  | .arr items => list (ofJsonItems items)
  | .obj fields => ofFields (ofJsonFields fields)

/-- The values of items. -/
def ofJsonItems : List (Json τ) → List (Value τ φ)
  | [] => []
  | j :: js => ofJson j :: ofJsonItems js

/-- The values of fields. -/
def ofJsonFields : List (τ × Json τ) → List (τ × Value τ φ)
  | [] => []
  | (k, j) :: fields => (k, ofJson j) :: ofJsonFields fields

end

variable [Texts τ] (l : Library τ φ)

mutual

/-- Plain data of a value, given those of records. -/
def plainWith (onRecord : String → List (τ × Value τ φ) → Except φ (Value τ φ)) :
    Value τ φ → Except φ (Value τ φ)
  | list items | tuple items => (plainItems onRecord items).map list
  | map entries | view _ entries => (plainEntries onRecord entries).map ofFields
  | record name fields => onRecord name fields
  | model name fields => (l.dump name fields).map fun fields => ofJson (.obj fields)
  | v => .ok v

/-- Plain data of every item. -/
def plainItems (onRecord : String → List (τ × Value τ φ) → Except φ (Value τ φ)) :
    List (Value τ φ) → Except φ (List (Value τ φ))
  | [] => .ok []
  | v :: vs => do
    let v ← plainWith onRecord v
    let vs ← plainItems onRecord vs
    .ok (v :: vs)

/-- The fields that plain entries make. -/
def plainEntries (onRecord : String → List (τ × Value τ φ) → Except φ (Value τ φ)) :
    List (Key τ × Value τ φ) → Except φ (List (τ × Value τ φ))
  | [] => .ok []
  | (k, v) :: entries => do
    let v ← plainWith onRecord v
    let entries ← plainEntries onRecord entries
    .ok ((k.text, v) :: entries)

end

/-- Plain data of a value in which records have been spread, so that none is met. -/
def plainSpread (v : Value τ φ) : Except φ (Value τ φ) :=
  plainWith l (fun name fields => .ok (record name fields)) v

/-- Plain data of a record, which is copied and spread before. -/
def plainRecord (name : String) (fields : List (τ × Value τ φ)) : Except φ (Value τ φ) :=
  copied l true (record name fields) >>= plainSpread l

/-- A value as plain data, or a refusal. -/
def plain? (v : Value τ φ) : Except φ (Value τ φ) := plainWith l (plainRecord l) v

/-! ## Values that refuse nothing -/

mutual

/-- What is dumped of a value in a model: a double without digits becomes null. -/
def dumped : Value τ φ → Json τ
  | null => .null
  | bool b => .bool b
  | int i => .int i
  | float x => if x.isFinite then .float x else .null
  | str s => .str s
  | list items | tuple items => .arr (dumpedItems items)
  | map entries | view _ entries => .obj (Table.ofList (dumpedEntries entries)).entries
  | record _ fields | model _ fields => .obj (Table.ofList (dumpedFields fields)).entries
  | bytes bs => .str (ofString (Text.quotedBytes bs))
  | token text => .str text

/-- What is dumped of items. -/
def dumpedItems : List (Value τ φ) → List (Json τ)
  | [] => []
  | v :: vs => dumped v :: dumpedItems vs

/-- What is dumped of entries. -/
def dumpedEntries : List (Key τ × Value τ φ) → List (τ × Json τ)
  | [] => []
  | (k, v) :: entries => (k.text, dumped v) :: dumpedEntries entries

/-- What is dumped of fields. -/
def dumpedFields : List (τ × Value τ φ) → List (τ × Json τ)
  | [] => []
  | (k, v) :: fields => (k, dumped v) :: dumpedFields fields

end

/-- Copies with the texts of their originals, and models of plain fields. -/
def Library.stock : Library τ φ where
  copy := .ok
  dump _ fields := .ok (dumpedFields fields)

/-- A result that nothing refuses. -/
def unrefused {α : Type} : Except Empty α → α
  | .ok a => a
  | .error e => nomatch e

/-- A value as plain data. -/
def plain (v : Value) : Value := unrefused (v.plain? .stock)

end Value

end Runbook
