/-
  Filling values into a message.

  A template is text with conversions.  A conversion shows the next value, or the
  value of a key of a single map of values if the key stands in parentheses after
  the percent sign; `%%` is a percent sign.  A template without values is taken
  verbatim.  `pieces?` takes a template apart, and `fill?` fails where the values
  do not fit the conversions.
-/
import Runbook.Log.Conversion

namespace Runbook.Log

/-! ## Taking a template apart -/

/-- A piece of a template. -/
inductive Piece where
  | char (c : Char)
  | conversion (key : Option String) (c : Conversion)
  deriving DecidableEq

/-- Splits after an opening parenthesis at the one that closes it; `depth` more are open. -/
def splitKey? (depth : Nat) : List Char → Option (List Char × List Char)
  | [] => none
  | c :: cs =>
    match c, depth with
    | ')', 0 => some ([], cs)
    | ')', depth + 1 => (splitKey? depth cs).map fun (key, rest) => (c :: key, rest)
    | '(', depth => (splitKey? (depth + 1) cs).map fun (key, rest) => (c :: key, rest)
    | c, depth => (splitKey? depth cs).map fun (key, rest) => (c :: key, rest)

theorem length_lt_of_splitKey? {depth : Nat} {cs key rest : List Char}
    (h : splitKey? depth cs = some (key, rest)) : rest.length < cs.length := by
  fun_induction splitKey? depth cs generalizing key rest with
  | case1 => cases h
  | case2 cs => cases h; simp
  | case3 cs depth ih | case4 depth cs ih | case5 depth c cs _ _ _ ih =>
    obtain ⟨⟨k, r⟩, hk, e⟩ := Option.map_eq_some_iff.1 h
    cases e; exact Nat.lt_succ_of_lt (ih hk)

/-- Reads what follows a percent sign: a key, if there is one, and a conversion. -/
def readPiece? : List Char → Option (Piece × List Char)
  | '(' :: cs => do
    let (key, cs) ← splitKey? 0 cs
    let (c, rest) ← Conversion.read? cs
    some (.conversion (String.ofList key) c, rest)
  | cs => do
    let (c, rest) ← Conversion.read? cs
    some (.conversion none c, rest)

theorem length_lt_of_readPiece? {cs rest : List Char} {p : Piece}
    (h : readPiece? cs = some (p, rest)) : rest.length < cs.length := by
  unfold readPiece? at h
  split at h <;> simp only [bind, Option.bind_eq_some_iff] at h
  · obtain ⟨⟨key, cs₁⟩, hk, ⟨c, rest⟩, hc, e⟩ := h
    cases e
    have h₁ := length_lt_of_splitKey? hk
    have h₂ := Conversion.length_lt_of_read? hc
    dsimp only at h₂ ⊢
    rw [List.length_cons]
    omega
  · obtain ⟨⟨c, rest⟩, hc, e⟩ := h
    cases e; exact Conversion.length_lt_of_read? hc

/-- The pieces of a template; none if it ends within a conversion. -/
def pieces? (template : List Char) : Option (List Piece) :=
  match template with
  | [] => some []
  | '%' :: '%' :: cs => (pieces? cs).map (.char '%' :: ·)
  | '%' :: cs =>
    match h : readPiece? cs with
    | none => none
    | some (piece, rest) =>
      have : rest.length < cs.length := length_lt_of_readPiece? h
      (pieces? rest).map (piece :: ·)
  | c :: cs => (pieces? cs).map (.char c :: ·)
  termination_by template.length

/-! ## Filling in -/

/-- The values of a template: a list that must be used up, or a map, of which one value at a time is
waiting: first the map itself, then what was looked up last. -/
inductive Supply where
  | items (values : List Value)
  | map (entries : List (Key × Value)) (waiting : Option Value)

/-- Whether values may be left over. -/
def Supply.isSpent : Supply → Bool
  | items values => values.isEmpty
  | map _ _ => true

/-- Takes the next value. -/
def Supply.next? : Supply → Option (Value × Supply)
  | items [] => none
  | items (v :: vs) => some (v, items vs)
  | map entries waiting => waiting.map (·, map entries none)

/-- Makes the value of a key the next one; without a key nothing changes. -/
def Supply.select? (key : Option String) (s : Supply) : Option Supply :=
  match key, s with
  | none, s => some s
  | some _, items _ => none
  | some key, map entries _ => entries.findSome? fun (k, v) => match k with
    | .str s => if s = key then some (map entries (some v)) else none
    | _ => none

/-- Takes a number for a width or a precision. -/
def Supply.nextExtent? (s : Supply) : Option (Int × Supply) := do
  let (v, s) ← s.next?
  let i ← whole? v
  if maxExtent < i.natAbs then none else some (i, s)

/-- The flags and the measures of a conversion, with the values that were not taken for them.  A
negative width aligns to the left, and a negative precision is zero. -/
def Supply.measures? (s : Supply) (c : Conversion) : Option (Flags × Measures × Supply) := do
  let (flags, width, s) ← match c.width with
    | .none => some (c.flags, 0, s)
    | .given n => some (c.flags, n, s)
    | .taken => do
      let (i, s) ← s.nextExtent?
      some ({ c.flags with leftAligned := c.flags.leftAligned || i < 0 }, i.natAbs, s)
  let (precision, s) ← match c.precision with
    | .none => some (none, s)
    | .given n => some (some n, s)
    | .taken => do
      let (i, s) ← s.nextExtent?
      some (some i.toNat, s)
  some (flags, ⟨width, precision⟩, s)

/-- Fills values into the pieces of a template. -/
def fillPieces? : List Piece → Supply → Option (List Char)
  | [], s => if s.isSpent then some [] else none
  | .char c :: pieces, s => (fillPieces? pieces s).map (c :: ·)
  | .conversion key c :: pieces, s => do
    let (flags, measures, s) ← (← s.select? key).measures? c
    let (v, s) ← s.next?
    let text ← c.show? flags measures v
    let rest ← fillPieces? pieces s
    some (text ++ rest)

/-- A message: its template with values filled in. -/
def fill? (template : String) (values : List Value) : Option String :=
  match values with
  | [] => some template
  | values => do
    let pieces ← pieces? template.toList
    let supply := match values with
      | [.map (e :: entries)] => Supply.map (e :: entries) (some (.map (e :: entries)))
      | values => .items values
    (fillPieces? pieces supply).map String.ofList

end Runbook.Log
