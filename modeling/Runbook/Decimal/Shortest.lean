/-
  The shortest decimal that stands for a double.

  A finite double is `mantissa * 2 ^ exponent` (`Double.ofFloat`).  The reals
  that round to it form an interval around it, with its ends if the mantissa is
  even.  `shortest` tries grids of one digit, two digits, and so on: the first
  grid with a point in the interval wins, the nearer of two points, and the even
  one of two equally near.
-/

namespace Runbook.Decimal

/-- A double, taken apart. -/
inductive Double where
  | nan
  | infinite (negative : Bool)
  | finite (negative : Bool) (mantissa : Nat) (exponent : Int)
  deriving DecidableEq, Repr

/-- Takes a double apart by its bits: a sign, eleven bits of exponent, 52 bits of fraction. -/
def Double.ofFloat (x : Float) : Double :=
  let bits := x.toBits.toNat
  let negative := bits / Nat.pow 2 63 = 1
  let exponent : Nat := bits / Nat.pow 2 52 % Nat.pow 2 11
  let fraction := bits % Nat.pow 2 52
  if exponent = 2047 then
    if fraction = 0 then infinite negative else nan
  else if exponent = 0 then finite negative fraction (-1074)
  else finite negative (Nat.pow 2 52 + fraction) ((exponent : Int) - 1075)

/-- A decimal `digits * 10 ^ exponent`. -/
structure Scaled where
  digits : Nat
  exponent : Int
  deriving DecidableEq, Repr

/-- The number of decimal digits of a number. -/
def digitCount (n : Nat) : Nat := (Nat.toDigits 10 n).length

/-- The decimal exponent of a positive fraction: the `e` with `10 ^ e ≤ num / den < 10 ^ (e + 1)`. -/
def magnitude (num den : Nat) : Int :=
  if den ≤ num then digitCount (num / den) - 1
  else -digitCount ((den + num - 1) / num - 1)

/-- The interval of reals that round to a double, and the double itself, as multiples of
`2 ^ exponent`, a quarter of the double's last place. -/
structure Rounding where
  low : Nat
  value : Nat
  high : Nat
  exponent : Int
  closed : Bool
  deriving DecidableEq, Repr

/-- The rounding interval of a double.  Below a power of two the doubles lie twice as close. -/
def Rounding.ofParts (mantissa : Nat) (exponent : Int) : Rounding :=
  let below := if mantissa = Nat.pow 2 52 ∧ exponent ≠ -1074 then 1 else 2
  ⟨4 * mantissa - below, 4 * mantissa, 4 * mantissa + 2, exponent - 2, mantissa % 2 = 0⟩

namespace Rounding

/-- The decimal exponent of the double. -/
def magnitude (r : Rounding) : Int :=
  Decimal.magnitude (r.value * Nat.pow 2 r.exponent.toNat) (Nat.pow 2 (-r.exponent).toNat)

/-- The point of the grid with step `10 ^ e` that stands for the double, if one does: of the two
points next to the double the one in the interval, or the nearer if both are. -/
def gridPoint (r : Rounding) (e : Int) : Option Scaled :=
  let unit := Nat.pow 2 r.exponent.toNat * Nat.pow 10 (-e).toNat
  let step := Nat.pow 10 e.toNat * Nat.pow 2 (-r.exponent).toNat
  let inside (n : Nat) : Bool :=
    if r.closed then r.low * unit ≤ n * step && n * step ≤ r.high * unit
    else r.low * unit < n * step && n * step < r.high * unit
  let below := r.value * unit / step
  match inside below, inside (below + 1) with
  | false, false => none
  | true, false => some ⟨below, e⟩
  | false, true => some ⟨below + 1, e⟩
  | true, true =>
    let twice := 2 * r.value * unit
    let middle := (2 * below + 1) * step
    if twice < middle ∨ twice = middle ∧ below % 2 = 0 then some ⟨below, e⟩
    else some ⟨below + 1, e⟩

end Rounding

/-- The shortest decimal that stands for the double `mantissa * 2 ^ exponent`, with `mantissa` not
zero.  Seventeen digits always do. -/
def shortest (mantissa : Nat) (exponent : Int) : Scaled :=
  let r := Rounding.ofParts mantissa exponent
  ((List.range 17).findSome? fun n : Nat => r.gridPoint (r.magnitude - n)).getD ⟨mantissa, exponent⟩

end Runbook.Decimal
