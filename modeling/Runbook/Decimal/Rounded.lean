/-
  Numbers rounded to whole ones and to doubles, a half to the even neighbour.

  A double has 53 binary digits.  `nearestDouble` is the number that a sum, a
  product or a quotient of doubles is rounded to; numbers that are too large or
  too small for the exponent of a double are not considered.
-/
import Runbook.Decimal.Shortest

namespace Runbook.Decimal

/-- A quotient rounded to the nearest whole number, a half to the even one. -/
def divHalfEven (num den : Nat) : Nat :=
  let below := num / den
  let twice := 2 * (num % den)
  if twice < den ∨ twice = den ∧ below % 2 = 0 then below else below + 1

/-- A rounded quotient is within half a unit of the quotient. -/
theorem divHalfEven_near (num : Nat) {den : Nat} (h : 0 < den) :
    2 * num ≤ (2 * divHalfEven num den + 1) * den ∧
      2 * (divHalfEven num den * den) ≤ 2 * num + den := by
  have hd := Nat.div_add_mod num den
  have hm := Nat.mod_lt num h
  have up : (num / den + 1) * den = den * (num / den) + den := by
    rw [Nat.add_mul, Nat.one_mul, Nat.mul_comm]
  have odd (n : Nat) : (2 * n + 1) * den = 2 * (n * den) + den := by
    rw [Nat.add_mul, Nat.one_mul, Nat.mul_assoc]
  unfold divHalfEven
  simp only
  split
  · rw [odd, Nat.mul_comm (num / den)]; omega
  · rw [odd, up]; omega

/-- A finite double, given by its parts, rounded to a whole number. -/
def roundedParts (negative : Bool) (mantissa : Nat) (exponent : Int) : Int :=
  let size := divHalfEven (mantissa * Nat.pow 2 exponent.toNat) (Nat.pow 2 (-exponent).toNat)
  if negative then -size else size

/-- A fraction that is not negative, rounded to a whole number. -/
def roundHalfEven (x : Rat) : Nat := divHalfEven x.num.toNat x.den

/-- The binary exponent of a positive fraction: the `e` with `2 ^ e ≤ x < 2 ^ (e + 1)`. -/
def binaryExponent (x : Rat) : Int :=
  let e : Int := x.num.toNat.log2 - x.den.log2
  if (2 : Rat) ^ e ≤ x then e else e - 1

/-- The step between the doubles around a positive fraction. -/
def lastPlace (x : Rat) : Rat := 2 ^ (binaryExponent x - 52)

/-- The double nearest to a fraction that is not negative. -/
def nearestDouble (x : Rat) : Rat := roundHalfEven (x / lastPlace x) * lastPlace x

end Runbook.Decimal
