/-
  JSON documents.

  The fields of an object keep their order; `sortKeys` puts them in the order of
  their keys, character by character, at every depth.
-/

namespace Runbook

/-- A JSON document.  Numbers are whole or doubles; texts are strings unless another type is named. -/
inductive Json (τ : Type := String) where
  | null
  | bool (b : Bool)
  | int (i : Int)
  | float (x : Float)
  | str (s : τ)
  | arr (items : List (Json τ))
  | obj (fields : List (τ × Json τ))
  deriving Inhabited

namespace Json

section

variable {τ : Type} [LE τ] [DecidableLE τ]

/-- Sorts fields by their keys. -/
def sortFields (fields : List (τ × Json τ)) : List (τ × Json τ) :=
  fields.mergeSort fun a b => decide (a.1 ≤ b.1)

mutual

/-- Sorts the fields of every object. -/
def sortKeys : Json τ → Json τ
  | arr items => arr (sortKeysItems items)
  | obj fields => obj (sortFields (sortKeysFields fields))
  | j => j

/-- `sortKeys` of every item. -/
def sortKeysItems : List (Json τ) → List (Json τ)
  | [] => []
  | j :: js => sortKeys j :: sortKeysItems js

/-- `sortKeys` of the value of every field. -/
def sortKeysFields : List (τ × Json τ) → List (τ × Json τ)
  | [] => []
  | (k, j) :: fields => (k, sortKeys j) :: sortKeysFields fields

end

end

/-- The field of an object. -/
def field? (j : Json) (key : String) : Option Json :=
  match j with
  | obj fields => (fields.find? (·.1 = key)).map Prod.snd
  | _ => none

end Json

end Runbook
