import Mathlib.Data.Rat.Floor
import Mathlib.Tactic.Linarith
import Mathlib.Tactic.Ring
import Stylebook.Scalar.Rational

/-!
# Rational scalars are rational numbers

The operations of scalars, read over the rationals, are the usual ones: the larger of two is their maximum, clamping
cuts off at zero and one, and the size is the absolute value. All rationals are comparable, so that no operation has to
give way.

A remainder is what is left when whole multiples are taken away (`remainder_add`), and the whole part of a number is the
whole number that it has reached (`wholePart_rat`).
-/

set_option autoImplicit false

namespace Stylebook.Scalar

@[simp] theorem ofNat_rat (n : Nat) : (ofNat n : Rat) = n := rfl

@[simp] theorem zero_rat : (zero : Rat) = 0 := rfl

@[simp] theorem one_rat : (one : Rat) = 1 := rfl

section Order

variable (x y : Rat)

@[simp] theorem less_rat : less x y = decide (x < y) := rfl

@[simp] theorem isComparable_rat : isComparable x = true := by
  simp [isComparable]

@[simp] theorem larger_rat : larger x y = max x y := by
  grind [larger, isComparable_rat, less_rat]

@[simp] theorem smaller_rat : smaller x y = min x y := by
  grind [smaller, isComparable_rat, less_rat]

@[simp] theorem clampUnit_rat : clampUnit x = max 0 (min x 1) := by
  grind [clampUnit, less_rat, zero_rat, one_rat]

@[simp] theorem size_rat : size x = |x| := by
  grind [size, less_rat, zero_rat, abs]

theorem clampUnit_mem : clampUnit x ∈ Set.Icc 0 1 := by
  rw [clampUnit_rat, Set.mem_Icc]
  exact ⟨le_max_left _ _, max_le zero_le_one (min_le_right _ _)⟩

theorem remainder_rat : remainder x y = x - y * ⌊x / y⌋ := rfl

end Order

section Division

variable {x y : Rat}

/-- Whole multiples of the divisor leave nothing. -/
theorem remainder_add {k : Int} (pos : 0 < y) (nonneg : 0 ≤ x) (small : x < y) : remainder (y * k + x) y = x := by
  have whole : ⌊(y * k + x) / y⌋ = k := by
    rw [Int.floor_eq_iff]
    constructor
    · rw [le_div_iff₀ pos]
      linarith
    · rw [div_lt_iff₀ pos]
      linarith
  rw [remainder_rat, whole]
  ring

theorem remainder_of_lt (nonneg : 0 ≤ x) (small : x < y) : remainder x y = x := by
  simpa using remainder_add (k := 0) (nonneg.trans_lt small) nonneg small

theorem wholePart_rat {k : Nat} (least : k ≤ x) (most : x < k + 1) : wholePart x = k := by
  have whole : ⌊x⌋ = k := Int.floor_eq_iff.mpr (by simpa using ⟨least, most⟩)
  change ⌊x⌋.toNat = k
  rw [whole, Int.toNat_natCast]

/-- A part of something, as a share of it. -/
theorem div_share (pos : 0 < y) (least : 0 ≤ x) (most : x ≤ y) : 0 ≤ x / y ∧ x / y ≤ 1 ∧ y * (x / y) = x :=
  ⟨div_nonneg least pos.le, (div_le_one pos).mpr most, mul_div_cancel₀ x pos.ne'⟩

end Division

end Stylebook.Scalar
