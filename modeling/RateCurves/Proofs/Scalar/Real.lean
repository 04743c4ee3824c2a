import Mathlib.Analysis.SpecialFunctions.Pow.Real
import RateCurves.Scalar.Closeness

/-!
# Exact arithmetic

The real numbers are scalars: no operation rounds, every value is a number, and comparisons are
decided. What the formulas of the library say at this instance is what they say in exact arithmetic.
The decimal literals, `abs`, `max`, `min` and the tests for special values are turned into those of
the real numbers.
-/

namespace RateCurves

open Scalar

noncomputable instance : Scalar ℝ where
  decLt := inferInstanceAs (DecidableLT ℝ)
  decLe := inferInstanceAs (DecidableLE ℝ)
  beq x y := decide (x = y)
  ofInt n := n
  exp := Real.exp
  ln := Real.log
  pow x y := x ^ y

instance lawfulBEq_real : LawfulBEq ℝ where
  rfl := decide_eq_true rfl
  eq_of_beq h := of_decide_eq_true h

namespace Scalar

/-! ## Literals -/

@[simp] theorem lit_zero : (0.0 : ℝ) = 0 := by norm_num

@[simp] theorem lit_half : (0.5 : ℝ) = 1 / 2 := by norm_num

@[simp] theorem lit_one : (1.0 : ℝ) = 1 := by norm_num

@[simp] theorem lit_two : (2.0 : ℝ) = 2 := by norm_num

@[simp] theorem lit_three : (3.0 : ℝ) = 3 := by norm_num

@[simp] theorem lit_four : (4.0 : ℝ) = 4 := by norm_num

@[simp] theorem lit_six : (6.0 : ℝ) = 6 := by norm_num

theorem ofInt_real (n : Int) : (ofInt n : ℝ) = n := rfl

theorem ofNat_real (n : Nat) : (ofNat n : ℝ) = n := by
  show ((n : Int) : ℝ) = n
  exact Int.cast_natCast n

theorem epsilon_pos : (0 : ℝ) < epsilon := by
  unfold epsilon
  norm_num

theorem epsilon_lt_one : (epsilon : ℝ) < 1 := by
  unfold epsilon
  norm_num

/-! ## Special values -/

@[simp] theorem isNaN_real (x : ℝ) : isNaN x = false := by
  simp [isNaN]

@[simp] theorem isFinite_real (x : ℝ) : isFinite x = true := by
  simp [isFinite, lit_zero]

/-! ## Magnitudes -/

theorem abs_real (x : ℝ) : abs x = |x| := by
  unfold abs
  rw [lit_zero]
  split_ifs with h
  · rw [abs_of_neg h]
  · rw [abs_of_nonneg (not_lt.mp h)]

theorem max_real (x y : ℝ) : max x y = Max.max x y := by
  simp only [max, isNaN_real, Bool.false_eq_true, if_false]
  split_ifs with h
  · rw [max_eq_right h.le]
  · rw [max_eq_left (not_lt.mp h)]

theorem min_real (x y : ℝ) : min x y = Min.min x y := by
  simp only [min, isNaN_real, Bool.false_eq_true, if_false]
  split_ifs with h
  · rw [min_eq_right h.le]
  · rw [min_eq_left (not_lt.mp h)]

theorem accuracy_pos (x : ℝ) : 0 < Max.max x epsilon := lt_of_lt_of_le epsilon_pos (le_max_right x _)

/-! ## Closeness to zero -/

@[simp] theorem close_self (x : ℝ) : close x x = true := by
  simp [close, closeWithin]

theorem ne_zero_of_not_close {x : ℝ} (h : close x 0 = false) : x ≠ 0 := by
  rintro rfl
  rw [close_self] at h
  exact absurd h (by decide)

/-- A value is close to zero if it lies below the squared tolerance. -/
theorem close_zero_iff (x : ℝ) : close x 0 = true ↔ |x| < (42 * epsilon) * (42 * epsilon) := by
  have hpos : (0 : ℝ) < (42 * epsilon) * (42 * epsilon) := by
    have := epsilon_pos
    positivity
  unfold close closeWithin tolerance defaultUnits
  simp only [lit_zero, ofNat_real, abs_real, sub_zero, mul_zero, beq_self_eq_true, if_true]
  by_cases h : x = 0
  · simpa [h] using hpos
  · simp [h]

theorem not_close_zero {x : ℝ} (h : 1 / 4 ≤ |x|) : close x 0 = false := by
  rw [← Bool.not_eq_true, close_zero_iff, not_lt]
  refine le_trans ?_ h
  norm_num [epsilon]

end Scalar

end RateCurves
