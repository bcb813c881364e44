/-
  CourseCharts — exact arithmetic.

  Over the rationals the operations of a chart are those of an ordered field:
  every number is finite, a requirement is about the order alone, and literals
  are what they say.
-/
import CourseCharts.Proofs.Checks
import Mathlib.Order.Interval.Set.Basic
import Mathlib.Tactic.Linarith
import Mathlib.Tactic.NormNum

namespace CourseCharts

/-! ## Literals -/

namespace Exact

theorem zero : (0.0 : Rat) = 0 := by norm_num

theorem one : (1.0 : Rat) = 1 := by norm_num

end Exact

/-! ## Numbers -/

namespace Scalar

@[simp] theorem ofNat_rat (n : Nat) : (ofNat n : Rat) = n := Int.cast_natCast n

@[simp] theorem isNaN_rat (x : Rat) : isNaN x = false := by simp [isNaN]

@[simp] theorem totalLE_rat (a b : Rat) : totalLE a b = decide (a ≤ b) := by simp [totalLE]

theorem larger_rat (a b : Rat) : larger a b = max a b := by
  simp only [larger, isNaN_rat, Bool.false_eq_true, if_false]
  split
  next h => exact (max_eq_left h.le).symm
  next h => exact (max_eq_right (not_lt.1 h)).symm

theorem right_le_larger (a b : Rat) : b ≤ larger a b := by
  rw [larger_rat]
  exact le_max_right a b

theorem smaller_rat (a b : Rat) : smaller a b = min a b := by
  simp only [smaller, isNaN_rat, Bool.false_eq_true, if_false]
  split
  next h => exact (min_eq_left h.le).symm
  next h => exact (min_eq_right (not_lt.1 h)).symm

theorem clamp_mem {low high : Rat} (h : low ≤ high) (x : Rat) :
    clamp low high x ∈ Set.Icc low high := by
  unfold clamp
  split
  next => exact Set.left_mem_Icc.2 h
  next hlow =>
    split
    next => exact Set.right_mem_Icc.2 h
    next hhigh => exact ⟨not_lt.1 hlow, not_lt.1 hhigh⟩

end Scalar

/-! ## Requirements -/

@[simp] theorem Scalar.isFinite_rat (x : Rat) : Scalar.isFinite x = true := rfl

namespace Requirement

variable {x : Rat}

@[simp] theorem positive_rat : positive.holds x = true ↔ 0 < x := by
  simp only [holds, Scalar.isFinite_rat, Bool.true_and, decide_eq_true_eq]
  rw [Exact.zero]

@[simp] theorem nonnegative_rat : nonnegative.holds x = true ↔ 0 ≤ x := by
  simp only [holds, Scalar.isFinite_rat, Bool.true_and, decide_eq_true_eq]
  rw [Exact.zero]

@[simp] theorem unitInterval_rat : unitInterval.holds x = true ↔ 0 ≤ x ∧ x ≤ 1 := by
  simp only [holds, Scalar.isFinite_rat, Bool.true_and, Bool.and_eq_true, decide_eq_true_eq]
  rw [Exact.zero, Exact.one]

end Requirement

end CourseCharts
