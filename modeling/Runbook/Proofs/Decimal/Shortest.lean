/-
  The digits of the shortest decimal of a double.

  * `pow_le_of_le_magnitude`: a power of ten up to the magnitude of a fraction is no
    larger than the fraction;
  * `shortest_digits_ne_zero`: **the shortest decimal of a double that is not zero has
    a digit that is not zero**, since a grid is tried only if its step is no larger
    than the double.
-/
import Mathlib.Tactic.Common
import Runbook.Decimal.Shortest

namespace Runbook.Decimal

theorem lt_pow_digitCount (n : Nat) : n < Nat.pow 10 (digitCount n) :=
  (Nat.length_toDigits_le_iff (by decide) Nat.length_toDigits_pos).1 (Nat.le_refl _)

theorem pow_digitCount_le {n : Nat} (h : 0 < n) : Nat.pow 10 (digitCount n - 1) ≤ n := by
  by_contra hlt
  by_cases hone : digitCount n - 1 = 0
  · rw [hone] at hlt
    exact hlt h
  · have hle := (Nat.length_toDigits_le_iff (by decide) (by omega)).2 (Nat.lt_of_not_le hlt)
    have hcount : digitCount n ≤ digitCount n - 1 := hle
    omega

/-- The power of ten at the magnitude of a fraction is no larger than the fraction. -/
theorem pow_magnitude_le {num den : Nat} (hn : 0 < num) (hd : 0 < den) :
    den * Nat.pow 10 (magnitude num den).toNat ≤ num * Nat.pow 10 (-magnitude num den).toNat := by
  unfold magnitude
  by_cases h : den ≤ num
  · have hpow := pow_digitCount_le (Nat.div_pos h hd)
    have hpos : 0 < digitCount (num / den) := Nat.length_toDigits_pos
    have hdown : ((digitCount (num / den) : Int) - 1).toNat = digitCount (num / den) - 1 := by omega
    have hup : (-((digitCount (num / den) : Int) - 1)).toNat = 0 := by omega
    rw [if_pos h, hdown, hup]
    calc den * Nat.pow 10 (digitCount (num / den) - 1)
        ≤ den * (num / den) := Nat.mul_le_mul_left den hpow
      _ ≤ num := Nat.mul_div_le num den
      _ = num * Nat.pow 10 0 := (Nat.mul_one num).symm
  · have hpow := lt_pow_digitCount ((den + num - 1) / num - 1)
    have hdown : (-(digitCount ((den + num - 1) / num - 1) : Int)).toNat = 0 := by omega
    have hup : (- -(digitCount ((den + num - 1) / num - 1) : Int)).toNat =
        digitCount ((den + num - 1) / num - 1) := by omega
    rw [if_neg h, hdown, hup]
    -- the quotient is rounded up, so that many times `num` reach `den`
    have hceil : den ≤ num * ((den + num - 1) / num) := by
      have hmod := Nat.div_add_mod (den + num - 1) num
      have hlt := Nat.mod_lt (den + num - 1) hn
      omega
    calc den * Nat.pow 10 0
        = den := Nat.mul_one den
      _ ≤ num * ((den + num - 1) / num) := hceil
      _ ≤ num * Nat.pow 10 (digitCount ((den + num - 1) / num - 1)) :=
        Nat.mul_le_mul_left num (Nat.le_of_pred_lt hpow)

theorem pow_le_of_le_magnitude {num den : Nat} (hn : 0 < num) (hd : 0 < den) {e : Int}
    (he : e ≤ magnitude num den) : den * Nat.pow 10 e.toNat ≤ num * Nat.pow 10 (-e).toNat :=
  calc den * Nat.pow 10 e.toNat
      ≤ den * Nat.pow 10 (magnitude num den).toNat :=
        Nat.mul_le_mul_left den (Nat.pow_le_pow_right (by decide) (by omega))
    _ ≤ num * Nat.pow 10 (-magnitude num den).toNat := pow_magnitude_le hn hd
    _ ≤ num * Nat.pow 10 (-e).toNat :=
        Nat.mul_le_mul_left num (Nat.pow_le_pow_right (by decide) (by omega))

/-- A point of a grid that is no wider than the double is not zero. -/
theorem Rounding.gridPoint_digits_ne_zero {r : Rounding} (hr : 0 < r.value) {e : Int}
    (he : e ≤ r.magnitude) {s : Scaled} (h : r.gridPoint e = some s) : s.digits ≠ 0 := by
  have hbelow : 0 < r.value * (Nat.pow 2 r.exponent.toNat * Nat.pow 10 (-e).toNat) /
      (Nat.pow 10 e.toNat * Nat.pow 2 (-r.exponent).toNat) := by
    refine Nat.div_pos ?_ (Nat.mul_pos (Nat.pow_pos (by decide)) (Nat.pow_pos (by decide)))
    have hle := pow_le_of_le_magnitude (Nat.mul_pos hr (Nat.pow_pos (by decide)))
      (Nat.pow_pos (by decide)) he
    rw [Nat.mul_comm (Nat.pow 10 e.toNat), ← Nat.mul_assoc]
    exact hle
  simp only [gridPoint] at h
  split at h
  · cases h
  · cases h
    exact Nat.ne_of_gt hbelow
  · cases h
    exact Nat.succ_ne_zero _
  · split at h
    · cases h
      exact Nat.ne_of_gt hbelow
    · cases h
      exact Nat.succ_ne_zero _

/-- **The shortest decimal of a double that is not zero is not zero.** -/
theorem shortest_digits_ne_zero {mantissa : Nat} (h : mantissa ≠ 0) (exponent : Int) :
    (shortest mantissa exponent).digits ≠ 0 := by
  unfold shortest
  dsimp only
  cases hfind : (List.range 17).findSome? fun n : Nat =>
      (Rounding.ofParts mantissa exponent).gridPoint
        ((Rounding.ofParts mantissa exponent).magnitude - n) with
  | none => exact h
  | some s =>
    obtain ⟨n, -, hn⟩ := List.exists_of_findSome?_eq_some hfind
    refine Rounding.gridPoint_digits_ne_zero ?_ (by omega) hn
    exact Nat.mul_pos (by decide) (Nat.pos_of_ne_zero h)

end Runbook.Decimal
