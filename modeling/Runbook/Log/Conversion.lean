/-
  Conversions: how a template shows a value.

  A conversion is a percent sign, flags, a width, a precision after a point, a
  letter for a size, which means nothing, and the letter that says what is shown:
  `s` a value as it is, `r` and `a` a value on display, `d` a whole number, `x`
  and `o` one in another base, `e`, `f` and `g` a decimal, `c` a character.
  `Conversion.read?` reads one off a template; `Conversion.show?` shows a value in
  it and fails on a value of the wrong kind.
-/
import Runbook.Decimal.Places
import Runbook.Decimal.Read
import Runbook.Value.Display

namespace Runbook.Log

/-- The text of a value that is shown as it is: texts without quotes. -/
def shown : Value → String
  | .str s => s
  | v => v.display

/-! ## Reading conversions -/

/-- The flags of a conversion. -/
structure Flags where
  leftAligned : Bool
  plus : Bool
  blank : Bool
  alternate : Bool
  zeroFilled : Bool
  deriving DecidableEq, Repr

/-- A width or a precision: none, a number, or one that is taken from the values. -/
inductive Extent where
  | none
  | given (n : Nat)
  | taken
  deriving DecidableEq, Repr

/-- A conversion. -/
structure Conversion where
  flags : Flags
  width : Extent
  precision : Extent
  letter : Char
  deriving DecidableEq, Repr

/-- The largest width and the largest precision. -/
def maxExtent : Nat := 2147483647

/-- The characters of the flags. -/
def flagChars : List Char := ['-', '+', ' ', '#', '0']

/-- Flags from their characters, in any order and number. -/
def Flags.ofChars (cs : List Char) : Flags :=
  ⟨'-' ∈ cs, '+' ∈ cs, ' ' ∈ cs, '#' ∈ cs, '0' ∈ cs⟩

/-- Reads an extent: a star, or digits; without digits it is what `empty` says. -/
def Extent.read? (empty : Extent) : List Char → Option (Extent × List Char)
  | '*' :: cs => some (taken, cs)
  | cs =>
    let digits := cs.takeWhile Char.isDigit
    let n := Decimal.digitsValue digits
    if digits.isEmpty then some (empty, cs)
    else if maxExtent < n then Option.none
    else some (given n, cs.dropWhile Char.isDigit)

/-- Reads a precision, which begins with a point; a point alone means zero. -/
def readPrecision? : List Char → Option (Extent × List Char)
  | '.' :: cs => Extent.read? (.given 0) cs
  | cs => some (.none, cs)

/-- Drops a letter for a size. -/
def skipSize : List Char → List Char
  | c :: cs => if c ∈ ['h', 'l', 'L'] then cs else c :: cs
  | [] => []

/-- Reads a conversion after its percent sign; fails where the template ends before the letter. -/
def Conversion.read? (cs : List Char) : Option (Conversion × List Char) := do
  let flags := cs.takeWhile (· ∈ flagChars)
  let (width, cs) ← Extent.read? .none (cs.dropWhile (· ∈ flagChars))
  let (precision, cs) ← readPrecision? cs
  match skipSize cs with
  | [] => none
  | letter :: rest => some (⟨.ofChars flags, width, precision, letter⟩, rest)

theorem Extent.length_le_of_read? {empty e : Extent} {cs rest : List Char}
    (h : Extent.read? empty cs = some (e, rest)) : rest.length ≤ cs.length := by
  unfold Extent.read? at h
  split at h
  · cases h; simp
  · dsimp only at h
    split at h
    · cases h; exact Nat.le_refl _
    · split at h
      · cases h
      · cases h; exact (List.dropWhile_sublist _).length_le

theorem length_le_of_readPrecision? {e : Extent} {cs rest : List Char}
    (h : readPrecision? cs = some (e, rest)) : rest.length ≤ cs.length := by
  unfold readPrecision? at h
  split at h
  · exact Nat.le_succ_of_le (Extent.length_le_of_read? h)
  · cases h; exact Nat.le_refl _

theorem length_skipSize_le (cs : List Char) : (skipSize cs).length ≤ cs.length := by
  unfold skipSize
  split
  · split <;> simp
  · exact Nat.le_refl _

/-- A conversion takes characters off the template. -/
theorem Conversion.length_lt_of_read? {c : Conversion} {cs rest : List Char}
    (h : Conversion.read? cs = some (c, rest)) : rest.length < cs.length := by
  simp only [Conversion.read?, bind, Option.bind_eq_some_iff] at h
  obtain ⟨⟨width, cs₁⟩, hw, ⟨precision, cs₂⟩, hp, h⟩ := h
  have h₁ := Extent.length_le_of_read? hw
  have h₀ : (cs.dropWhile (· ∈ flagChars)).length ≤ cs.length :=
    (List.dropWhile_sublist _).length_le
  have h₂ := length_le_of_readPrecision? hp
  have h₃ := length_skipSize_le cs₂
  split at h
  · cases h
  · next letter cs₃ e =>
    cases h
    rw [e, List.length_cons] at h₃
    dsimp only at h₁ h₂
    omega

/-! ## Showing values -/

/-- A width and a precision that are known. -/
structure Measures where
  width : Nat
  precision : Option Nat
  deriving DecidableEq, Repr

/-- What is shown of a value: a text, or a number with its sign, the mark of its base and its digits
apart. -/
inductive Shown where
  | text (cs : List Char)
  | number (negative : Bool) (mark digits : List Char)
  deriving DecidableEq, Repr

/-- Something shown in its width.  Zeros stand between the sign and the digits of a number; blanks
stand before everything, or after it. -/
def Shown.laidOut (flags : Flags) (width : Nat) : Shown → List Char
  | text cs =>
    let blanks := List.replicate (width - cs.length) ' '
    if flags.leftAligned then cs ++ blanks else blanks ++ cs
  | number negative mark digits =>
    let sign :=
      if negative then ['-'] else if flags.plus then ['+'] else if flags.blank then [' '] else []
    let missing := width - (sign ++ mark ++ digits).length
    if flags.leftAligned then sign ++ mark ++ digits ++ List.replicate missing ' '
    else if flags.zeroFilled then sign ++ mark ++ Decimal.zeros missing ++ digits
    else List.replicate missing ' ' ++ sign ++ mark ++ digits

/-- A text, as long as its precision allows. -/
def cut (precision : Option Nat) (s : String) : Shown :=
  .text ((precision.map s.toList.take).getD s.toList)

/-- A text with escapes for what is not ASCII. -/
def asciiOnly (s : String) : String :=
  String.ofList (s.toList.flatMap fun c => if c.toNat < 0x80 then [c] else Text.escapeCode c)

/-- A double without its fraction; none where it has no digits. -/
def truncated? (x : Float) : Option Int :=
  match Decimal.Double.ofFloat x with
  | .finite negative mantissa exponent =>
    let size : Nat := mantissa * Nat.pow 2 exponent.toNat / Nat.pow 2 (-exponent).toNat
    some (if negative then -(size : Int) else size)
  | _ => none

/-- The whole number that a value is. -/
def whole? : Value → Option Int
  | .int i => some i
  | .bool b => some (if b then 1 else 0)
  | _ => none

/-- The whole number that a value is, without its fraction. -/
def wholePart? : Value → Option Int
  | .float x => truncated? x
  | v => whole? v

/-- The double that a value is.  A whole number that is too large is none. -/
def double? : Value → Option Decimal.Double
  | .float x => some (.ofFloat x)
  | v => do
    let i ← whole? v
    match Decimal.Double.ofFloat (Decimal.nearest i.natAbs 0) with
    | .finite _ mantissa exponent => some (.finite (i < 0) mantissa exponent)
    | _ => none

/-- A whole number in a base, with at least as many digits as its precision. -/
def inBase (base : Nat) (mark : List Char) (precision : Option Nat) (i : Int) : Shown :=
  let digits := Nat.toDigits base i.natAbs
  .number (i < 0) mark (Decimal.zeros (precision.getD 0 - digits.length) ++ digits)

/-- Something shown in capitals. -/
def Shown.capital : Shown → Shown
  | text cs => text (cs.map Char.toUpper)
  | number negative mark digits =>
    number negative (mark.map Char.toUpper) (digits.map Char.toUpper)

/-- The places of a decimal whose conversion has no precision. -/
def defaultPlaces : Nat := 6

/-- A decimal with as many places as its precision. -/
def decimal (n : Decimal.Form) (alternate : Bool) (precision : Option Nat) :
    Decimal.Double → Shown
  | .nan => .number false [] "nan".toList
  | .infinite negative => .number negative [] "inf".toList
  | .finite negative mantissa exponent =>
    .number negative [] (n.write alternate (precision.getD defaultPlaces) mantissa exponent)

/-- The character of a code point, if it is one. -/
def charOf? (i : Int) : Option Char :=
  if h : 0 ≤ i ∧ i.toNat.isValidChar then some (Char.ofNatAux i.toNat h.2) else none

/-- The character that a value is, or is the code point of. -/
def character? : Value → Option Char
  | .str s =>
    match s.toList with
    | [c] => some c
    | _ => none
  | v => do charOf? (← whole? v)

/-- What a conversion's letter shows of a value; fails on a value of the wrong kind. -/
def shownAs? (letter : Char) (alternate : Bool) (precision : Option Nat) (v : Value) :
    Option Shown :=
  let mark (cs : List Char) : List Char := if alternate then cs else []
  match letter with
  | 's' => some (cut precision (shown v))
  | 'r' => some (cut precision v.display)
  | 'a' => some (cut precision (asciiOnly v.display))
  | 'd' | 'i' | 'u' => (wholePart? v).map (inBase 10 [] precision)
  | 'o' => (whole? v).map (inBase 8 (mark ['0', 'o']) precision)
  | 'x' => (whole? v).map (inBase 16 (mark ['0', 'x']) precision)
  | 'X' => (whole? v).map fun i => (inBase 16 (mark ['0', 'x']) precision i).capital
  | 'e' => (double? v).map (decimal .scientific alternate precision)
  | 'E' => (double? v).map fun x => (decimal .scientific alternate precision x).capital
  | 'f' => (double? v).map (decimal .fixed alternate precision)
  | 'F' => (double? v).map fun x => (decimal .fixed alternate precision x).capital
  | 'g' => (double? v).map (decimal .general alternate precision)
  | 'G' => (double? v).map fun x => (decimal .general alternate precision x).capital
  | 'c' => (character? v).map fun c => .text [c]
  | _ => none

/-- A value in a conversion of known measures. -/
def Conversion.show? (c : Conversion) (flags : Flags) (m : Measures) (v : Value) :
    Option (List Char) :=
  (shownAs? c.letter flags.alternate m.precision v).map (·.laidOut flags m.width)

end Runbook.Log
