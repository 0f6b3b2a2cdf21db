/-
  Times taken from the readings of a clock.

  A time is made of two readings, a difference and a product, and each of them is
  rounded to a double.  So a time is near to what passed between the readings, and
  it is that exactly if the clock stood at whole eighths of a second.

  * `elapsed_near_readings`: a time and the difference of its readings;
  * `elapsed_near`: **a time is as near to the truth as the readings are**;
  * `elapsed_add_near`: two times in a row make nearly the time of both;
  * `elapsed_eighths`: **in eighths of a second times are exact.**
-/
import Runbook.Host.Action
import Runbook.Proofs.Decimal.Rounded

namespace Runbook

open Decimal

/-- The nanoseconds of an eighth of a second. -/
def eighth : Nat := 125000000

/-- A clock that stands at a whole number of eighths of a second, and at less than `2 ^ 53`
milliseconds. -/
structure InEighths (clock : Nat) : Prop where
  whole : eighth ∣ clock
  small : clock < 2 ^ 53 * millisecond

theorem reading_nonneg (clock : Nat) : 0 ≤ reading clock := nearestDouble_nonneg _

/-- A later reading is no less. -/
theorem reading_mono {start stop : Nat} (h : start ≤ stop) : reading start ≤ reading stop := by
  apply nearestDouble_mono (by positivity)
  have hcast : (start : Rat) ≤ stop := by exact_mod_cast h
  linarith

theorem elapsed_nonneg (start stop : Nat) : 0 ≤ elapsed start stop := nearestDouble_nonneg _

section
variable {start stop : Nat}

/-- The product of a double is near to the product of what was rounded. -/
theorem nearestDouble_mul_near {x : Rat} (hx : 0 ≤ x) :
    |nearestDouble (nearestDouble x * 1000) - x * 1000| ≤ x * 1000 / 2 ^ 51 := by
  have hnear := abs_le.1 (nearestDouble_near hx)
  have hproduct := abs_le.1 (nearestDouble_near
    (mul_nonneg (nearestDouble_nonneg x) (by norm_num : (0 : Rat) ≤ 1000)))
  rw [abs_le]
  constructor <;> linarith [hnear.1, hnear.2, hproduct.1, hproduct.2]

/-- A time is near to the difference of the readings that it is made of. -/
theorem elapsed_near_readings (h : start ≤ stop) :
    |elapsed start stop - (reading stop - reading start) * 1000| ≤
      (reading stop - reading start) * 1000 / 2 ^ 51 :=
  nearestDouble_mul_near (sub_nonneg.2 (reading_mono h))

/-- **A time is as near to the truth as the readings are.** -/
theorem elapsed_near (h : start ≤ stop) :
    |elapsed start stop - ((stop : Rat) - start) / millisecond| ≤
      stop / millisecond / 2 ^ 50 := by
  have hcast : (start : Rat) ≤ stop := by exact_mod_cast h
  have hstart := abs_le.1 (nearestDouble_near (x := (start : Rat) / 1000000000) (by positivity))
  have hstop := abs_le.1 (nearestDouble_near (x := (stop : Rat) / 1000000000) (by positivity))
  have htime := abs_le.1 (elapsed_near_readings h)
  have hzero := reading_nonneg start
  have hms : (millisecond : Rat) = 1000000 := rfl
  simp only [reading] at *
  rw [abs_le, hms]
  constructor <;> linarith [hstart.1, hstart.2, hstop.1, hstop.2, htime.1, htime.2]

/-- So the time of a call is near to what it took. -/
theorem elapsed_took_near (start took : Nat) :
    |elapsed start (start + took) - (took : Rat) / millisecond| ≤
      ((start + took : Nat) : Rat) / millisecond / 2 ^ 50 := by
  have htook : ((start + took : Nat) : Rat) - start = took := by
    push_cast
    ring
  rw [← htook]
  exact elapsed_near (Nat.le_add_right ..)

/-- Two calls that took as long, up to a moment, have nearly the same time. -/
theorem elapsed_near_elapsed {a b took last : Nat} (ha : a + took ≤ last) (hb : b + took ≤ last) :
    |elapsed b (b + took) - elapsed a (a + took)| ≤ (last : Rat) / millisecond / 2 ^ 49 := by
  have hms : (millisecond : Rat) = 1000000 := rfl
  have ha' : ((a + took : Nat) : Rat) ≤ last := by exact_mod_cast ha
  have hb' : ((b + took : Nat) : Rat) ≤ last := by exact_mod_cast hb
  have hx := abs_le.1 (elapsed_took_near a took)
  have hy := abs_le.1 (elapsed_took_near b took)
  rw [hms] at hx hy ⊢
  rw [abs_le]
  constructor <;> linarith [hx.1, hx.2, hy.1, hy.2]

/-- What is made of the same readings in two ways is nearly the same. -/
theorem near_of_readings {x y d : Rat} (hx : |x - d| ≤ d / 2 ^ 51) (hy : |y - d| ≤ d / 2 ^ 51) :
    |x - y| ≤ x / 2 ^ 49 := by
  rw [abs_le] at hx hy ⊢
  constructor <;> linarith [hx.1, hx.2, hy.1, hy.2]

/-- Two times in a row make nearly the time of both. -/
theorem elapsed_add_near {middle : Nat} (h : start ≤ middle) (h' : middle ≤ stop) :
    |elapsed start stop - (elapsed start middle + elapsed middle stop)| ≤
      elapsed start stop / 2 ^ 49 := by
  have hfirst := abs_le.1 (elapsed_near_readings h)
  have hsecond := abs_le.1 (elapsed_near_readings h')
  refine near_of_readings (elapsed_near_readings (h.trans h')) ?_
  rw [abs_le]
  constructor <;> linarith [hfirst.1, hfirst.2, hsecond.1, hsecond.2]

/-- A clock that stands at whole eighths of a second is read exactly. -/
theorem reading_eighths {n : Nat} (h : n < 2 ^ 53) : reading (n * eighth) = n * 2 ^ (-3 : Int) := by
  have hvalue : ((n * eighth : Nat) : Rat) / 1000000000 = n * 2 ^ (-3 : Int) := by
    push_cast [eighth]
    ring
  rw [reading, hvalue, nearestDouble_eq_self _ h]

/-- **In eighths of a second times are exact.** -/
theorem elapsed_eighths (hstart : InEighths start) (hstop : InEighths stop) (h : start ≤ stop) :
    elapsed start stop = ((stop : Rat) - start) / millisecond := by
  obtain ⟨⟨m, rfl⟩, -⟩ := hstart
  obtain ⟨⟨n, rfl⟩, hsmall⟩ := hstop
  have hmn : m ≤ n := Nat.le_of_mul_le_mul_left h (by decide)
  have hn : n * 125 < 2 ^ 53 := by
    unfold eighth millisecond at hsmall
    omega
  have hdifference : (n : Rat) * 2 ^ (-3 : Int) - m * 2 ^ (-3 : Int) =
      ((n - m : Nat) : Rat) * 2 ^ (-3 : Int) := by
    rw [Nat.cast_sub hmn]
    ring
  have hproduct : ((n - m : Nat) : Rat) * 2 ^ (-3 : Int) * 1000 =
      (((n - m) * 125 : Nat) : Rat) * 2 ^ (0 : Int) := by
    push_cast
    ring
  rw [elapsed, Nat.mul_comm, Nat.mul_comm eighth m, reading_eighths (by omega),
    reading_eighths (by omega), hdifference, nearestDouble_eq_self _ (by omega), hproduct,
    nearestDouble_eq_self _ (by omega)]
  push_cast [Nat.cast_sub hmn, eighth, millisecond]
  ring

/-- In eighths of a second two times in a row make the time of both. -/
theorem elapsed_add {middle : Nat} (hstart : InEighths start) (hmiddle : InEighths middle)
    (hstop : InEighths stop) (h : start ≤ middle) (h' : middle ≤ stop) :
    elapsed start stop = elapsed start middle + elapsed middle stop := by
  rw [elapsed_eighths hstart hstop (h.trans h'), elapsed_eighths hstart hmiddle h,
    elapsed_eighths hmiddle hstop h']
  ring

end

end Runbook
