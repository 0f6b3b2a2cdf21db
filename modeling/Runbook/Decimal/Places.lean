/-
  Doubles with a given number of places.

  `Form.fixed` writes so many digits after the point, `Form.scientific` so
  many after the first digit and then an exponent, and `Form.general` so many
  digits in all, in the one way or the other.  The digits are those of the nearest
  decimal that has so many, of two equally near ones the one with an even last
  digit.
-/
import Runbook.Decimal.Rounded
import Runbook.Decimal.Written

namespace Runbook.Decimal

/-- How the places of a number are counted. -/
inductive Form where
  | fixed
  | scientific
  | general
  deriving DecidableEq, Repr

/-- The nearest multiple of `10 ^ exponent` to `num / den`, counted in that unit. -/
def roundedAt (num den : Nat) (exponent : Int) : Nat :=
  divHalfEven (num * Nat.pow 10 (-exponent).toNat) (den * Nat.pow 10 exponent.toNat)

/-- The nearest decimal of `count` digits to a fraction.  Rounding up may take a digit more, which is
then a zero; zero has as many digits as are asked for. -/
def roundedTo (count num den : Nat) : Scaled :=
  let exponent := (if num = 0 then 0 else magnitude num den) - count + 1
  let digits := roundedAt num den exponent
  if digits < Nat.pow 10 count then ⟨digits, exponent⟩ else ⟨digits / 10, exponent + 1⟩

/-- The decimal digits of a number, with zeros before them up to a length. -/
def paddedDigits (length n : Nat) : List Char :=
  let digits := Nat.toDigits 10 n
  zeros (length - digits.length) ++ digits

/-- A whole part and a fraction with a point in between, which an empty fraction does not need. -/
def pointed (keepsPoint : Bool) (whole fraction : List Char) : List Char :=
  if fraction.isEmpty && !keepsPoint then whole else whole ++ '.' :: fraction

/-- An exponent after its letter, of at least two digits. -/
def exponentPart (exponent : Int) : List Char :=
  'e' :: (if exponent < 0 then '-' else '+') :: paddedDigits 2 exponent.natAbs

/-- A fraction with a number of places after the point. -/
def fixedPlaces (keepsPoint : Bool) (places num den : Nat) : List Char :=
  let digits := paddedDigits (places + 1) (roundedAt num den (-places))
  let wholeLength := digits.length - places
  pointed keepsPoint (digits.take wholeLength) (digits.drop wholeLength)

/-- A fraction with a number of places after its first digit, and an exponent. -/
def scientificPlaces (keepsPoint : Bool) (places num den : Nat) : List Char :=
  let s := roundedTo (places + 1) num den
  let digits := paddedDigits (places + 1) s.digits
  pointed keepsPoint (digits.take 1) (digits.drop 1) ++ exponentPart (s.exponent + places)

/-- A fraction with a number of digits, and an exponent unless the point stands among the digits or
shortly before them.  Zeros at the end of its fraction are left out unless the point is kept. -/
def generalPlaces (keepsPoint : Bool) (places num den : Nat) : List Char :=
  let count := max places 1
  let s := roundedTo count num den
  let exponent := s.exponent + count - 1
  let digits := paddedDigits count s.digits
  let trimmed (fraction : List Char) : List Char :=
    if keepsPoint then fraction else withoutTrailingZeros fraction
  if exponent < positionalFrom ∨ count ≤ exponent then
    pointed keepsPoint (digits.take 1) (trimmed (digits.drop 1)) ++ exponentPart exponent
  else if exponent < 0 then
    pointed keepsPoint ['0'] (trimmed (zeros (-exponent - 1).toNat ++ digits))
  else
    let wholeLength := exponent.toNat + 1
    pointed keepsPoint (digits.take wholeLength) (trimmed (digits.drop wholeLength))

/-- The size of a finite double, given by its parts, in writing. -/
def Form.write (n : Form) (keepsPoint : Bool) (places mantissa : Nat) (exponent : Int) :
    List Char :=
  let num := mantissa * Nat.pow 2 exponent.toNat
  let den := Nat.pow 2 (-exponent).toNat
  match n with
  | fixed => fixedPlaces keepsPoint places num den
  | scientific => scientificPlaces keepsPoint places num den
  | general => generalPlaces keepsPoint places num den

end Runbook.Decimal
