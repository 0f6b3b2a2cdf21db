/-
  The values that commands return and variables hold.

  A value is data (null, booleans, numbers, texts, lists and maps), data in a
  host's own dress (tuples, records and models, which have a name and named
  fields), or an opaque thing that is only known by its text (bytes, tokens).  A
  map may have keys of other types than text.  A view is a map that can be read but
  not copied.

  Texts are strings, unless a type of texts with surrogates is named.  Nothing
  refuses to be copied, unless a type of refusals is named: the values of a run are
  such, as they are rendered again and again, and no run ends because one of
  them cannot be.
-/

namespace Runbook

/-- The key of a map's entry. -/
inductive Key (τ : Type := String) where
  | null
  | bool (b : Bool)
  | int (i : Int)
  | float (x : Float)
  | str (s : τ)
  | bytes (bytes : List UInt8)
  | tuple (items : List (Key τ))
  | token (text : τ)
  deriving Inhabited

/-- A value of a variable. -/
inductive Value (τ : Type := String) (φ : Type := Empty) where
  | null
  | bool (b : Bool)
  | int (i : Int)
  | float (x : Float)
  | str (s : τ)
  | list (items : List (Value τ φ))
  | tuple (items : List (Value τ φ))
  | map (entries : List (Key τ × Value τ φ))
  | view (refusal : φ) (entries : List (Key τ × Value τ φ))
  | record (name : String) (fields : List (τ × Value τ φ))
  | model (name : String) (fields : List (τ × Value τ φ))
  | bytes (bytes : List UInt8)
  | token (text : τ)
  deriving Inhabited

/-- A map whose keys are texts. -/
def Value.object {τ φ : Type} (fields : List (τ × Value τ φ)) : Value τ φ :=
  .map (fields.map fun (k, v) => (.str k, v))

end Runbook
