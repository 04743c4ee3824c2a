import RateCurves.Proofs.Scalar.Real

/-!
# Ordered scalars

Every interval search and every test for a node compares values only. What these comparisons have in
common in exact and in rounded arithmetic is that they are those of a linear order on the values that are
not above themselves; the other values compare with nothing, and none of them is finite
(`OrderedScalar`). The real numbers are ordered scalars, and so are the doubles.
-/

namespace RateCurves

open Scalar

/-- Scalars whose comparisons are those of a linear order on the values that do not exceed themselves,
among which are all finite ones. -/
class OrderedScalar (α : Type) [Scalar α] : Prop where
  le_trans {x y z : α} : x ≤ y → y ≤ z → x ≤ z
  le_total {x y : α} : x ≤ x → y ≤ y → x ≤ y ∨ y ≤ x
  lt_iff {x y : α} : x < y ↔ x ≤ y ∧ ¬y ≤ x
  beq_iff {x y : α} : (x == y) = true ↔ x ≤ y ∧ y ≤ x
  le_self_of_finite {x : α} : isFinite x = true → x ≤ x

instance : OrderedScalar ℝ where
  le_trans := le_trans
  le_total {x y} _ _ := le_total x y
  lt_iff := lt_iff_le_not_ge
  beq_iff := beq_iff_eq.trans le_antisymm_iff
  le_self_of_finite _ := le_refl _

namespace OrderedScalar

variable {α : Type} [Scalar α] [OrderedScalar α] {x y z : α}

theorem le_of_lt (h : x < y) : x ≤ y := (lt_iff.mp h).1

theorem not_le_of_lt (h : x < y) : ¬y ≤ x := (lt_iff.mp h).2

theorem not_lt_of_le (h : x ≤ y) : ¬y < x := fun hlt => not_le_of_lt hlt h

theorem lt_of_not_le (hx : x ≤ x) (hy : y ≤ y) (h : ¬y ≤ x) : x < y :=
  lt_iff.mpr ⟨(le_total hx hy).resolve_right h, h⟩

theorem le_of_not_lt (hx : x ≤ x) (hy : y ≤ y) (h : ¬x < y) : y ≤ x :=
  not_not.mp fun hnot => h (lt_of_not_le hx hy hnot)

theorem lt_of_lt_of_le (h : x < y) (h' : y ≤ z) : x < z :=
  lt_iff.mpr ⟨le_trans (le_of_lt h) h', fun hle => not_le_of_lt h (le_trans h' hle)⟩

theorem lt_trans (h : x < y) (h' : y < z) : x < z := lt_of_lt_of_le h (le_of_lt h')

theorem beq_self (hx : x ≤ x) : (x == x) = true := beq_iff.mpr ⟨hx, hx⟩

theorem isNaN_eq_false (hx : x ≤ x) : isNaN x = false := by
  rw [isNaN, beq_self hx]
  rfl

theorem le_self_of_isNaN (h : isNaN x = false) : x ≤ x := by
  rw [isNaN, Bool.not_eq_false'] at h
  exact (beq_iff.mp h).1

theorem max_eq (hx : x ≤ x) (hy : y ≤ y) : Scalar.max x y = if x < y then y else x := by
  rw [Scalar.max, isNaN_eq_false hx, isNaN_eq_false hy]
  rfl

theorem beq_of_lt (h : x < y) : (y == x) = false := by
  rw [← Bool.not_eq_true, beq_iff]
  exact fun heq => not_le_of_lt h heq.1

end OrderedScalar

end RateCurves
