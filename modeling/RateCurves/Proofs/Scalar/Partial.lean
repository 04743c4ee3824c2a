import RateCurves.Proofs.Scalar.Order

/-!
# Exact arithmetic in which a result may not exist

The real numbers are scalars, but they give every operation a result, also where there is none: a quotient by zero,
the logarithm of a number that is not positive, a power of a negative number whose exponent is not whole. What the
library does there is to refuse a value that is not a number. So where an answer depends on whether a result
exists, exact arithmetic is that of the real numbers together with one value more, which stands for the results that
do not exist (`PartialReal`): it compares with nothing, and an operation on it has no result either. On numbers the
operations that have a result are those of the real numbers.
-/

namespace RateCurves

open Scalar

/-- A real number, or the result of an operation that has none. -/
inductive PartialReal where
  | undefined
  | real (x : ℝ)

namespace PartialReal

/-- The result of an operation on a number; there is none on what is undefined. -/
def bind (x : PartialReal) (f : ℝ → PartialReal) : PartialReal :=
  match x with
  | undefined => undefined
  | real x => f x

/-- A power exists of a positive number, of zero unless the exponent is negative, and of a negative number if the
exponent is whole. -/
def HasPower (x y : ℝ) : Prop := 0 < x ∨ x = 0 ∧ 0 ≤ y ∨ x < 0 ∧ ∃ n : ℤ, y = n

open Classical in
noncomputable instance : Scalar PartialReal where
  add x y := x.bind fun x => y.bind fun y => real (x + y)
  sub x y := x.bind fun x => y.bind fun y => real (x - y)
  mul x y := x.bind fun x => y.bind fun y => real (x * y)
  div x y := x.bind fun x => y.bind fun y => if y = 0 then undefined else real (x / y)
  neg x := x.bind fun x => real (-x)
  lt
    | real x, real y => x < y
    | _, _ => False
  le
    | real x, real y => x ≤ y
    | _, _ => False
  beq
    | real x, real y => decide (x = y)
    | _, _ => false
  ofScientific m negative e := real (OfScientific.ofScientific m negative e)
  decLt _ _ := propDecidable _
  decLe _ _ := propDecidable _
  ofInt n := real n
  exp x := x.bind fun x => real (Real.exp x)
  ln x := x.bind fun x => if 0 < x then real (Real.log x) else undefined
  pow x y := x.bind fun x => y.bind fun y => if HasPower x y then real (x ^ y) else undefined

variable {x y z : ℝ}

/-! ## Operations on numbers -/

@[simp] theorem real_add : real x + real y = real (x + y) := rfl

@[simp] theorem real_sub : real x - real y = real (x - y) := rfl

@[simp] theorem real_mul : real x * real y = real (x * y) := rfl

@[simp] theorem real_neg : -real x = real (-x) := rfl

@[simp] theorem real_ofNat (n : ℕ) : (ofNat n : PartialReal) = real n := congrArg real (Int.cast_natCast n)

theorem real_div (hy : y ≠ 0) : real x / real y = real (x / y) := if_neg hy

theorem real_ln (hx : 0 < x) : ln (real x) = real (Real.log x) := if_pos hx

@[simp] theorem real_lit_zero : (0.0 : PartialReal) = real 0 := congrArg real lit_zero

@[simp] theorem real_lit_one : (1.0 : PartialReal) = real 1 := congrArg real lit_one

@[simp] theorem real_lit_two : (2.0 : PartialReal) = real 2 := congrArg real lit_two

/-! ## Comparisons -/

@[simp] theorem real_lt : real x < real y ↔ x < y := Iff.rfl

@[simp] theorem real_le : real x ≤ real y ↔ x ≤ y := Iff.rfl

@[simp] theorem real_beq : (real x == real y) = decide (x = y) := rfl

theorem exists_of_lt {p : PartialReal} (h : real x < p) : ∃ y, p = real y ∧ x < y := by
  cases p with
  | undefined => exact h.elim
  | real y => exact ⟨y, rfl, h⟩

instance : OrderedScalar PartialReal where
  le_trans {p q r} h h' := by
    cases p <;> cases q <;> cases r
    case real.real.real u v w => exact le_trans (α := ℝ) h h'
    all_goals contradiction
  le_total {p q} h h' := by
    cases p <;> cases q
    case real.real u v => exact le_total (α := ℝ) u v
    all_goals contradiction
  lt_iff {p q} := by
    cases p <;> cases q
    case real.real u v => exact lt_iff_le_not_ge (α := ℝ)
    all_goals exact ⟨False.elim, fun h => h.1⟩
  beq_iff {p q} := by
    cases p <;> cases q
    case real.real u v => exact decide_eq_true_iff.trans le_antisymm_iff
    all_goals exact ⟨nofun, fun h => h.1.elim⟩
  le_self_of_finite {p} h := by
    cases p with
    | undefined => cases h
    | real u => exact le_refl u

/-! ## Powers -/

theorem pow_eq_real : pow (real x) (real y) = real z ↔ HasPower x y ∧ x ^ y = z := by
  by_cases h : HasPower x y
  · have hpow : pow (real x) (real y) = real (x ^ y) := if_pos h
    rw [hpow, real.injEq, and_iff_right h]
  · have hpow : pow (real x) (real y) = undefined := if_neg h
    simp [hpow, h]

/-- A positive power of a number other than zero is the exponential of a multiple of its logarithm. -/
theorem HasPower.eq_exp (h : HasPower x y) (hx : x ≠ 0) (hpos : 0 < x ^ y) : x ^ y = Real.exp (Real.log x * y) := by
  rcases h with hx' | ⟨hzero, -⟩ | ⟨hneg, n, rfl⟩
  · exact Real.rpow_def_of_pos hx' y
  · exact absurd hzero hx
  · rw [Real.rpow_intCast] at hpos ⊢
    calc x ^ n = |x ^ n| := (abs_of_pos hpos).symm
      _ = |x| ^ (n : ℝ) := by rw [abs_zpow, Real.rpow_intCast]
      _ = Real.exp (Real.log x * n) := by rw [Real.rpow_def_of_pos (abs_pos.mpr hx), Real.log_abs]

/-! ## Magnitudes and closeness -/

@[simp] theorem real_abs : Scalar.abs (real x) = real |x| := by
  rw [← abs_real, Scalar.abs, Scalar.abs, apply_ite real]
  simp only [real_lit_zero, lit_zero, real_lt, real_neg]

@[simp] theorem real_max : max (real x) (real y) = real (Max.max x y) := by
  rw [OrderedScalar.max_eq (real_le.mpr le_rfl) (real_le.mpr le_rfl), ← max_real,
    OrderedScalar.max_eq le_rfl le_rfl]
  simp only [real_lt, apply_ite real]

@[simp] theorem real_tolerance (n : ℕ) : (tolerance n : PartialReal) = real (tolerance n) := by
  have hsize : (4503599627370496.0 : ℝ) ≠ 0 := by norm_num
  have hepsilon : (epsilon : PartialReal) = real epsilon := real_div hsize
  rw [tolerance, hepsilon, real_ofNat, real_mul, tolerance, ofNat_real]

@[simp] theorem real_closeEnough : closeEnough (real x) (real y) = closeEnough x y := by
  unfold closeEnough closeEnoughWithin
  simp only [real_beq, real_sub, real_mul, real_abs, real_tolerance, real_lt, real_le, real_lit_zero, lit_zero,
    abs_real]
  rfl

end PartialReal

end RateCurves
