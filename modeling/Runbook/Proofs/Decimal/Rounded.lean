/-
  How far rounding goes.

  * `roundHalfEven_mono`: rounding to whole numbers keeps the order;
  * `binaryExponent_spec`: a positive fraction lies between two powers of two;
  * `nearestDouble_near`: **the nearest double is as near as 53 digits allow**;
  * `nearestDouble_eq_self`: a fraction with no more digits is a double itself;
  * `nearestDouble_mono`: rounding to doubles keeps the order.
-/
import Mathlib.Algebra.Order.Field.Power
import Mathlib.Data.Rat.Floor
import Mathlib.Tactic.Linarith
import Mathlib.Tactic.Positivity
import Runbook.Decimal.Rounded

namespace Runbook.Decimal

/-! ## Whole numbers -/

section
variable {x y : Rat}

theorem cast_den_pos (x : Rat) : (0 : Rat) < x.den := by exact_mod_cast x.den_pos

/-- A fraction that is not negative times its denominator is its numerator. -/
theorem toNat_num_eq (hx : 0 ≤ x) : (x.num.toNat : Rat) = x * x.den := by
  have hnum : ((x.num.toNat : Int) : Rat) = x.num :=
    congrArg _ (Int.toNat_of_nonneg (Rat.num_nonneg.2 hx))
  rw [← Int.cast_natCast, hnum, Rat.mul_den_eq_num]

theorem roundHalfEven_near (hx : 0 ≤ x) : |(roundHalfEven x : Rat) - x| ≤ 1 / 2 := by
  obtain ⟨hlow, hhigh⟩ := divHalfEven_near x.num.toNat x.den_pos
  have hlow' : 2 * (x.num.toNat : Rat) ≤ (2 * (roundHalfEven x : Rat) + 1) * x.den := by
    exact_mod_cast hlow
  have hhigh' : 2 * ((roundHalfEven x : Rat) * x.den) ≤ 2 * x.num.toNat + x.den := by
    exact_mod_cast hhigh
  rw [toNat_num_eq hx] at hlow' hhigh'
  rw [abs_le]
  constructor
  · have h : 0 ≤ (2 * (roundHalfEven x : Rat) + 1 - 2 * x) * x.den := by linarith
    linarith [nonneg_of_mul_nonneg_left h (cast_den_pos x)]
  · have h : 0 ≤ (2 * x + 1 - 2 * (roundHalfEven x : Rat)) * x.den := by linarith
    linarith [nonneg_of_mul_nonneg_left h (cast_den_pos x)]

theorem roundHalfEven_mono (hx : 0 ≤ x) (h : x ≤ y) : roundHalfEven x ≤ roundHalfEven y := by
  by_contra hlt
  have hstep : (roundHalfEven y : Rat) + 1 ≤ roundHalfEven x := by
    exact_mod_cast Nat.lt_of_not_le hlt
  have hnearx := abs_le.1 (roundHalfEven_near hx)
  have hneary := abs_le.1 (roundHalfEven_near (hx.trans h))
  -- only what lies halfway is so near to both
  have hxy : x = y := le_antisymm h (by linarith [hnearx.2, hneary.1])
  subst hxy
  exact hlt le_rfl

theorem roundHalfEven_natCast (n : Nat) : roundHalfEven n = n := by
  simp [roundHalfEven, divHalfEven, Nat.mod_one]

end

/-! ## Doubles -/

theorem two_zpow_pos (e : Int) : (0 : Rat) < 2 ^ e := zpow_pos two_pos e

/-- A number that is not zero lies between two powers of two. -/
theorem log2_spec {n : Nat} (h : n ≠ 0) :
    (2 : Rat) ^ (n.log2 : Int) ≤ n ∧ (n : Rat) < 2 ^ ((n.log2 : Int) + 1) := by
  constructor
  · have hlow : 2 ^ n.log2 ≤ n := Nat.log2_self_le h
    rw [zpow_natCast]
    exact_mod_cast hlow
  · have hhigh : n < 2 ^ (n.log2 + 1) := Nat.lt_log2_self
    have hcast : (2 : Rat) ^ ((n.log2 : Int) + 1) = ((2 ^ (n.log2 + 1) : Nat) : Rat) := by
      push_cast
      exact_mod_cast zpow_natCast (2 : Rat) (n.log2 + 1)
    rw [hcast]
    exact_mod_cast hhigh

theorem binaryExponent_spec {x : Rat} (hx : 0 < x) :
    (2 : Rat) ^ binaryExponent x ≤ x ∧ x < 2 ^ (binaryExponent x + 1) := by
  have hd := cast_den_pos x
  have hnum := toNat_num_eq hx.le
  have hn : x.num.toNat ≠ 0 := by
    have hpos := Rat.num_pos.2 hx
    omega
  obtain ⟨hnlow, hnhigh⟩ := log2_spec hn
  obtain ⟨hdlow, hdhigh⟩ := log2_spec x.den_nz
  rw [hnum] at hnlow hnhigh
  have hlow : (2 : Rat) ^ ((x.num.toNat.log2 : Int) - x.den.log2 - 1) ≤ x := by
    have hsplit : (2 : Rat) ^ ((x.num.toNat.log2 : Int) - x.den.log2 - 1) *
        2 ^ ((x.den.log2 : Int) + 1) = 2 ^ (x.num.toNat.log2 : Int) := by
      rw [← zpow_add₀ two_ne_zero]
      congr 1
      ring
    refine le_of_mul_le_mul_right ?_ hd
    calc (2 : Rat) ^ ((x.num.toNat.log2 : Int) - x.den.log2 - 1) * x.den
        ≤ 2 ^ ((x.num.toNat.log2 : Int) - x.den.log2 - 1) * 2 ^ ((x.den.log2 : Int) + 1) :=
          mul_le_mul_of_nonneg_left hdhigh.le (two_zpow_pos _).le
      _ = 2 ^ (x.num.toNat.log2 : Int) := hsplit
      _ ≤ x * x.den := hnlow
  have hhigh : x < 2 ^ ((x.num.toNat.log2 : Int) - x.den.log2 + 1) := by
    have hsplit : (2 : Rat) ^ ((x.num.toNat.log2 : Int) - x.den.log2 + 1) *
        2 ^ (x.den.log2 : Int) = 2 ^ ((x.num.toNat.log2 : Int) + 1) := by
      rw [← zpow_add₀ two_ne_zero]
      congr 1
      ring
    refine lt_of_mul_lt_mul_right ?_ hd.le
    calc x * x.den
        < 2 ^ ((x.num.toNat.log2 : Int) + 1) := hnhigh
      _ = 2 ^ ((x.num.toNat.log2 : Int) - x.den.log2 + 1) * 2 ^ (x.den.log2 : Int) := hsplit.symm
      _ ≤ 2 ^ ((x.num.toNat.log2 : Int) - x.den.log2 + 1) * x.den :=
          mul_le_mul_of_nonneg_left hdlow (two_zpow_pos _).le
  simp only [binaryExponent]
  split
  · next h => exact ⟨h, hhigh⟩
  · next h => exact ⟨hlow, by rw [sub_add_cancel]; exact not_le.1 h⟩

theorem lastPlace_pos (x : Rat) : 0 < lastPlace x := two_zpow_pos _

theorem pow_mul_lastPlace (k : Nat) (x : Rat) :
    2 ^ k * lastPlace x = 2 ^ (binaryExponent x - 52 + k) := by
  rw [lastPlace, ← zpow_natCast, ← zpow_add₀ two_ne_zero, Int.add_comm]

/-- A positive fraction has 53 binary digits before its last place. -/
theorem div_lastPlace {x : Rat} (hx : 0 < x) :
    2 ^ 52 ≤ x / lastPlace x ∧ x / lastPlace x < 2 ^ 53 := by
  obtain ⟨hlow, hhigh⟩ := binaryExponent_spec hx
  have hplace := lastPlace_pos x
  have hlow' : (2 : Rat) ^ 52 * lastPlace x = 2 ^ binaryExponent x := by
    rw [pow_mul_lastPlace]
    congr 1
    omega
  have hhigh' : (2 : Rat) ^ 53 * lastPlace x = 2 ^ (binaryExponent x + 1) := by
    rw [pow_mul_lastPlace]
    congr 1
    omega
  rw [le_div_iff₀ hplace, div_lt_iff₀ hplace, hlow', hhigh']
  exact ⟨hlow, hhigh⟩

theorem nearestDouble_zero : nearestDouble 0 = 0 := by
  have h : roundHalfEven 0 = 0 := roundHalfEven_natCast 0
  simp [nearestDouble, h]

theorem nearestDouble_nonneg (x : Rat) : 0 ≤ nearestDouble x :=
  mul_nonneg (Nat.cast_nonneg _) (lastPlace_pos x).le

/-- **The nearest double is as near as 53 digits allow.** -/
theorem nearestDouble_near {x : Rat} (hx : 0 ≤ x) : |nearestDouble x - x| ≤ x / 2 ^ 53 := by
  rcases hx.eq_or_lt with rfl | hpos
  · simp [nearestDouble_zero]
  have hplace := lastPlace_pos x
  have hround := roundHalfEven_near (div_nonneg hx hplace.le)
  have hdigits := (div_lastPlace hpos).1
  have hscaled : nearestDouble x - x =
      ((roundHalfEven (x / lastPlace x) : Rat) - x / lastPlace x) * lastPlace x := by
    rw [sub_mul, div_mul_cancel₀ _ hplace.ne', nearestDouble]
  rw [le_div_iff₀ hplace] at hdigits
  calc |nearestDouble x - x|
      = |(roundHalfEven (x / lastPlace x) : Rat) - x / lastPlace x| * lastPlace x := by
        rw [hscaled, abs_mul, abs_of_pos hplace]
    _ ≤ 1 / 2 * lastPlace x := mul_le_mul_of_nonneg_right hround hplace.le
    _ ≤ x / 2 ^ 53 := by linarith

/-- A fraction with at most 53 binary digits is a double. -/
theorem nearestDouble_eq_self {n : Nat} (e : Int) (h : n < 2 ^ 53) :
    nearestDouble (n * 2 ^ e) = n * 2 ^ e := by
  rcases Nat.eq_zero_or_pos n with rfl | hn
  · simp [nearestDouble_zero]
  have hpos : (0 : Rat) < n * 2 ^ e := mul_pos (by exact_mod_cast hn) (two_zpow_pos e)
  obtain ⟨hlow, -⟩ := binaryExponent_spec hpos
  -- its last place is no larger than the unit in which it is counted
  have hexponent : binaryExponent (n * 2 ^ e) - 52 ≤ e := by
    have hlt : (2 : Rat) ^ binaryExponent (n * 2 ^ e) < 2 ^ (53 + e) := by
      calc (2 : Rat) ^ binaryExponent (n * 2 ^ e) ≤ n * 2 ^ e := hlow
        _ < 2 ^ 53 * 2 ^ e := mul_lt_mul_of_pos_right (by exact_mod_cast h) (two_zpow_pos e)
        _ = 2 ^ (53 + e) := by rw [zpow_add₀ two_ne_zero]; norm_num
    have := (zpow_lt_zpow_iff_right₀ (one_lt_two : (1 : Rat) < 2)).1 hlt
    omega
  obtain ⟨k, hk⟩ : ∃ k : Nat, e = binaryExponent (n * 2 ^ e) - 52 + k :=
    ⟨(e - (binaryExponent (n * 2 ^ e) - 52)).toNat, by omega⟩
  have hplace := lastPlace_pos (n * 2 ^ e)
  have hwhole : (n * 2 ^ e : Rat) = ((n * 2 ^ k : Nat) : Rat) * lastPlace (n * 2 ^ e) := by
    push_cast
    rw [mul_assoc, pow_mul_lastPlace, ← hk]
  have hdiv : (n * 2 ^ e : Rat) / lastPlace (n * 2 ^ e) = ((n * 2 ^ k : Nat) : Rat) := by
    rw [div_eq_iff hplace.ne']
    exact hwhole
  rw [nearestDouble, hdiv, roundHalfEven_natCast]
  exact hwhole.symm

theorem nearestDouble_mono {x y : Rat} (hx : 0 ≤ x) (h : x ≤ y) :
    nearestDouble x ≤ nearestDouble y := by
  rcases hx.eq_or_lt with rfl | hpos
  · rw [nearestDouble_zero]
    exact nearestDouble_nonneg y
  have hy := hpos.trans_le h
  obtain ⟨hxlow, hxhigh⟩ := binaryExponent_spec hpos
  obtain ⟨hylow, hyhigh⟩ := binaryExponent_spec hy
  have hle : binaryExponent x ≤ binaryExponent y := by
    have hlt : (2 : Rat) ^ binaryExponent x < 2 ^ (binaryExponent y + 1) :=
      hxlow.trans_lt (h.trans_lt hyhigh)
    have := (zpow_lt_zpow_iff_right₀ (one_lt_two : (1 : Rat) < 2)).1 hlt
    omega
  have hxplace := lastPlace_pos x
  have hyplace := lastPlace_pos y
  rcases hle.eq_or_lt with heq | hlt
  · -- the same last place
    have hplace : lastPlace x = lastPlace y := by rw [lastPlace, lastPlace, heq]
    rw [nearestDouble, nearestDouble, hplace]
    rw [hplace] at hxplace
    have hmono := roundHalfEven_mono (div_nonneg hx hyplace.le)
      (div_le_div_of_nonneg_right h hyplace.le)
    exact mul_le_mul_of_nonneg_right (by exact_mod_cast hmono) hyplace.le
  · -- a power of two lies between the two
    have hup : roundHalfEven (x / lastPlace x) ≤ 2 ^ 53 := by
      have hmono := roundHalfEven_mono (y := ((2 ^ 53 : Nat) : Rat)) (div_nonneg hx hxplace.le)
        (by exact_mod_cast (div_lastPlace hpos).2.le)
      rwa [roundHalfEven_natCast] at hmono
    have hdown : 2 ^ 52 ≤ roundHalfEven (y / lastPlace y) := by
      have hmono := roundHalfEven_mono (x := ((2 ^ 52 : Nat) : Rat)) (by positivity)
        (by exact_mod_cast (div_lastPlace hy).1)
      rwa [roundHalfEven_natCast] at hmono
    have hplaces : (2 : Rat) ^ 53 * lastPlace x ≤ 2 ^ 52 * lastPlace y := by
      rw [pow_mul_lastPlace, pow_mul_lastPlace]
      exact zpow_le_zpow_right₀ one_le_two (by omega)
    calc nearestDouble x
        ≤ 2 ^ 53 * lastPlace x :=
          mul_le_mul_of_nonneg_right (by exact_mod_cast hup) hxplace.le
      _ ≤ 2 ^ 52 * lastPlace y := hplaces
      _ ≤ nearestDouble y := mul_le_mul_of_nonneg_right (by exact_mod_cast hdown) hyplace.le

end Runbook.Decimal
