/-
  Doubles in writing.

  `written` lays the shortest digits of a double out: with a point when its
  decimal exponent is at least -4 and below 16, else with an exponent of at least
  two digits after an `e`.  A `Style` gives the names of the values that have no
  digits.
-/
import Runbook.Decimal.Shortest

namespace Runbook.Decimal

/-- How the values without digits are written. -/
structure Style where
  nan : String
  infinity : String
  deriving DecidableEq, Repr

/-- The style of displayed values. -/
def Style.display : Style := ⟨"nan", "inf"⟩

/-- The style of JSON texts. -/
def Style.json : Style := ⟨"NaN", "Infinity"⟩

/-- The first decimal exponent that is written with a point. -/
def positionalFrom : Int := -4

/-- The first decimal exponent that is too large to be written with a point. -/
def positionalBelow : Int := 16

/-- A run of zeros. -/
def zeros (n : Nat) : List Char := List.replicate n '0'

/-- Digits with a point after the first `point` of them; a point outside the digits is reached by
zeros, and at least one digit follows it. -/
def positional (digits : List Char) (point : Int) : List Char :=
  if point ≤ 0 then '0' :: '.' :: (zeros (-point).toNat ++ digits)
  else if digits.length ≤ point.toNat then
    digits ++ zeros (point.toNat - digits.length) ++ ['.', '0']
  else digits.take point.toNat ++ '.' :: digits.drop point.toNat

/-- Digits with a point after the first one and a decimal exponent. -/
def exponential (digits : List Char) (exponent : Int) : List Char :=
  let mantissa := match digits with
    | d :: e :: ds => d :: '.' :: e :: ds
    | ds => ds
  let size := Nat.toDigits 10 exponent.natAbs
  mantissa ++ 'e' :: (if exponent < 0 then '-' else '+') :: (zeros (2 - size.length) ++ size)

/-- Digits without the zeros at their end. -/
def withoutTrailingZeros (digits : List Char) : List Char :=
  (digits.reverse.dropWhile (· = '0')).reverse

/-- A positive decimal in writing. -/
def Scaled.written (s : Scaled) : List Char :=
  let allDigits := Nat.toDigits 10 s.digits
  let exponent := s.exponent + allDigits.length - 1
  let digits := withoutTrailingZeros allDigits
  if positionalFrom ≤ exponent ∧ exponent < positionalBelow then positional digits (exponent + 1)
  else exponential digits exponent

/-- A double in writing. -/
def Double.written (style : Style) (x : Double) : String :=
  let signed (negative : Bool) (s : String) : String := if negative then "-" ++ s else s
  match x with
  | nan => style.nan
  | infinite negative => signed negative style.infinity
  | finite negative mantissa exponent =>
    signed negative <|
      if mantissa = 0 then "0.0" else String.ofList (shortest mantissa exponent).written

/-- A double in writing. -/
def written (style : Style) (x : Float) : String := (Double.ofFloat x).written style

end Runbook.Decimal
