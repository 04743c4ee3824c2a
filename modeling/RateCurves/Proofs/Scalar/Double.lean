import Mathlib
import RateCurves.Proofs.Scalar.Order

/-!
# Doubles

The comparisons of doubles look at kind, exponent and mantissa. Those that are numbers have a place in a
linear order made of the three (`Double.place`), and a comparison compares the places of its operands and
fails if one of them has none (`Double.compare_eq`). A difference that equals zero is a number, and so are
its operands; so the doubles are ordered scalars.
-/

namespace RateCurves

open Scalar Float.Model

namespace Double

open UnpackedFloat

/-- The order of all numbers: by kind from minus to plus infinity, then by exponent and mantissa, which
count downwards among negative numbers. -/
abbrev Place := ℤ ×ₗ ℤ ×ₗ ℤ

/-- Where an unpacked value stands among the numbers, if it is one. -/
def place : UnpackedFloat → Option Place
  | .notANumber => none
  | .infinity .negative => some (toLex (-2, toLex (0, 0)))
  | .finite .negative m e _ => some (toLex (-1, toLex (-e, -m)))
  | .zero _ => some (toLex (0, toLex (0, 0)))
  | .finite .positive m e _ => some (toLex (1, toLex (e, m)))
  | .infinity .positive => some (toLex (2, toLex (0, 0)))

theorem compare_nat (m n : Nat) : compare (m : ℤ) n = compare m n := by
  simp only [compare, compareOfLessAndEq, Nat.cast_lt, Nat.cast_inj]

theorem compare_neg (m n : ℤ) : compare (-m) (-n) = (compare m n).swap := by
  rw [Int.compare_swap]
  simp only [compare, compareOfLessAndEq, neg_lt_neg_iff, neg_inj, eq_comm]

theorem compare_place {k e f m n : ℤ} :
    compare (toLex (k, toLex (e, m)) : Place) (toLex (k, toLex (f, n))) =
      (compare e f).then (compare m n) := by
  simp [Prod.Lex.compare_def, compareLex, compareOn]

/-- Only values of the same kind are compared further than by their kinds. -/
theorem compare_eq (a b : UnpackedFloat) :
    a.compare b = (place a).bind fun p => (place b).map fun q => compare p q := by
  rcases a with ⟨_ | _⟩ | _ | ⟨_ | _⟩ | ⟨_ | _, m, e, hm⟩ <;>
    rcases b with ⟨_ | _⟩ | _ | ⟨_ | _⟩ | ⟨_ | _, n, f, hn⟩
  case finite.negative.finite.negative =>
    show some ((compare e f).then (compare m n)).swap = some (compare _ _)
    rw [compare_place, compare_neg, compare_neg, compare_nat, Ordering.swap_then]
  case finite.positive.finite.positive =>
    show some ((compare e f).then (compare m n)) = some (compare _ _)
    rw [compare_place, compare_nat]
  all_goals rfl

variable {x y z : Float}

/-- The place of a double. -/
def placeOf (x : Float) : Option Place := place x.toModel.unpack

theorem le_iff : x ≤ y ↔ ∃ p q, placeOf x = some p ∧ placeOf y = some q ∧ p ≤ q := by
  have hle : x ≤ y ↔ (x.toModel.unpack.compare y.toModel.unpack).any (·.isLE) = true := decide_eq_true_iff
  rw [hle, compare_eq, placeOf, placeOf]
  cases place x.toModel.unpack <;> cases place y.toModel.unpack <;>
    simp [Ordering.isLE_iff_ne_gt, compare_gt_iff_gt]

theorem lt_iff : x < y ↔ ∃ p q, placeOf x = some p ∧ placeOf y = some q ∧ p < q := by
  have hlt : x < y ↔ (x.toModel.unpack.compare y.toModel.unpack == some .lt) = true := decide_eq_true_iff
  rw [hlt, compare_eq, placeOf, placeOf]
  cases place x.toModel.unpack <;> cases place y.toModel.unpack <;> simp [compare_lt_iff_lt]

theorem beq_iff : (x == y) = true ↔ ∃ p q, placeOf x = some p ∧ placeOf y = some q ∧ p = q := by
  have hbeq : (x == y) = (x.toModel.unpack.compare y.toModel.unpack == some .eq) := rfl
  rw [hbeq, compare_eq, placeOf, placeOf]
  cases place x.toModel.unpack <;> cases place y.toModel.unpack <;> simp [compare_eq_iff_eq]
  exact eq_comm

theorem le_iff_places {p q : Place} (hp : placeOf x = some p) (hq : placeOf y = some q) :
    x ≤ y ↔ p ≤ q := by
  rw [le_iff, hp, hq]
  constructor
  · rintro ⟨_, _, hp', hq', hle⟩
    cases hp'
    cases hq'
    exact hle
  · exact fun hle => ⟨p, q, rfl, rfl, hle⟩

theorem le_self_iff : x ≤ x ↔ x ≠ Float.nan := by
  rw [← Float.beq_self_iff, beq_iff, le_iff]
  constructor
  · rintro ⟨p, -, hp, -⟩
    exact ⟨p, p, hp, hp, rfl⟩
  · rintro ⟨p, -, hp, -⟩
    exact ⟨p, p, hp, hp, le_rfl⟩

end Double

open Double in
instance : OrderedScalar Float where
  le_trans {x y z} h h' := by
    obtain ⟨p, q, hp, hq, hpq⟩ := le_iff.mp h
    obtain ⟨_, r, -, hr, -⟩ := le_iff.mp h'
    rw [le_iff_places hq hr] at h'
    exact (le_iff_places hp hr).mpr (hpq.trans h')
  le_total {x y} hx hy := by
    obtain ⟨p, -, hp, -⟩ := le_iff.mp hx
    obtain ⟨q, -, hq, -⟩ := le_iff.mp hy
    rw [le_iff_places hp hq, le_iff_places hq hp]
    exact le_total p q
  lt_iff {x y} := by
    rw [lt_iff]
    constructor
    · rintro ⟨p, q, hp, hq, hlt⟩
      rw [le_iff_places hp hq, le_iff_places hq hp]
      exact ⟨hlt.le, hlt.not_ge⟩
    · rintro ⟨hle, hnot⟩
      obtain ⟨p, q, hp, hq, -⟩ := le_iff.mp hle
      rw [le_iff_places hq hp, not_le] at hnot
      exact ⟨p, q, hp, hq, hnot⟩
  beq_iff {x y} := by
    rw [beq_iff]
    constructor
    · rintro ⟨p, q, hp, hq, rfl⟩
      exact ⟨(le_iff_places hp hq).mpr le_rfl, (le_iff_places hq hp).mpr le_rfl⟩
    · rintro ⟨hle, hge⟩
      obtain ⟨p, q, hp, hq, hpq⟩ := le_iff.mp hle
      rw [le_iff_places hq hp] at hge
      exact ⟨p, q, hp, hq, hpq.antisymm hge⟩
  le_self_of_finite {x} h := by
    rw [le_self_iff]
    rintro rfl
    revert h
    decide

end RateCurves
