import RateCurves.Proofs.RootSearch.History

/-!
# False position brackets

In exact arithmetic the two ends have always been evaluated, with values of opposite signs (`Holds`).
So the chord between them crosses zero between the ends (`point_between`), which is where the method
looks next. The distances of that point from the ends are as the values there (`point_distances`), and the
method stops once the nearer end is within the accuracy (`Stalled`). This says nothing about the other end,
so a root that is returned need not be near a sign change (`falsePosition_stalls`,
`falsePosition_stalls_early`).
-/

namespace RateCurves

open Scalar

variable {log : History ℝ} {accuracy low high : ℝ}

namespace FalsePosition

/-- The two ends have been evaluated, with values of opposite signs. -/
structure Holds (log : History ℝ) (s : State ℝ) : Prop where
  negative : Valued log s.negative s.atNegative
  positive : Valued log s.positive s.atPositive
  atNegative_neg : s.atNegative < 0
  atPositive_pos : 0 < s.atPositive

theorem start_holds {b : Bracket ℝ} (hb : b.Proper log low high) : Holds log (start b) := by
  have hLow : Valued log b.low b.atLow := by rw [hb.low_eq]; exact hb.atLow
  have hHigh : Valued log b.high b.atHigh := by rw [hb.high_eq]; exact hb.atHigh
  unfold start
  rw [lit_zero]
  split_ifs with hneg
  · exact ⟨hLow, hHigh, hneg, pos_of_mul_neg_right hb.opposite hneg.le⟩
  · have hpos : 0 ≤ b.atLow := not_lt.mp hneg
    exact ⟨hHigh, hLow, neg_of_mul_neg_right hb.opposite hpos,
      lt_of_le_of_ne hpos (left_ne_zero_of_mul hb.opposite.ne).symm⟩

theorem point_between {s : State ℝ} (hneg : s.atNegative < 0) (hpos : 0 < s.atPositive)
    (hn : low ≤ s.negative ∧ s.negative ≤ high) (hp : low ≤ s.positive ∧ s.positive ≤ high) :
    low ≤ point s ∧ point s ≤ high := by
  have hgap : 0 < s.atPositive - s.atNegative := by linarith
  have hmean : point s = (s.atPositive * s.negative + -s.atNegative * s.positive) /
      (s.atPositive - s.atNegative) := by
    have hgap' : s.atNegative - s.atPositive ≠ 0 := by linarith
    unfold point
    field_simp
    ring
  rw [hmean, le_div_iff₀ hgap, div_le_iff₀ hgap]
  constructor <;> nlinarith

theorem point_distances {s : State ℝ} (hneg : s.atNegative < 0) (hpos : 0 < s.atPositive) :
    |s.positive - point s| * |s.atNegative| = |s.negative - point s| * |s.atPositive| := by
  have hgap : s.atNegative - s.atPositive ≠ 0 := by linarith
  have hchord : (s.positive - point s) * s.atNegative = (s.negative - point s) * s.atPositive := by
    unfold point
    field_simp
    ring
  rw [← abs_mul, ← abs_mul, hchord]

/-- The value `v` at `x` has the sign of that at `a`, which is within the accuracy, and `x` is where the
chord from `a` to a point `b` with a value of the opposite sign crosses zero. -/
def Stalled (accuracy : ℝ) (log : History ℝ) (x v : ℝ) : Prop :=
  ∃ a va b vb, Valued log a va ∧ Valued log b vb ∧ 0 < v * va ∧ v * vb < 0 ∧ |a - x| < accuracy ∧
    |b - x| * |va| = |a - x| * |vb|

theorem absorb_holds {s : State ℝ} {value : ℝ} (h : Holds log s) (hvalue : Valued log (point s) value) :
    (absorb accuracy s value).Meets (Accepted (Stalled accuracy) log) (Holds log) := by
  have hdistances := point_distances h.atNegative_neg h.atPositive_pos
  unfold absorb
  simp only [lit_zero, abs_real, Bool.or_eq_true, decide_eq_true_eq, beq_iff_eq]
  rcases lt_trichotomy value 0 with hneg | rfl | hpos
  · -- the negative end moves
    simp only [if_pos hneg, hneg.ne, or_false]
    split_ifs with hstop
    · exact ⟨value, hvalue, .inr ⟨s.negative, s.atNegative, s.positive, s.atPositive, h.negative, h.positive,
        mul_pos_of_neg_of_neg hneg h.atNegative_neg, mul_neg_of_neg_of_pos hneg h.atPositive_pos, hstop,
        hdistances⟩⟩
    · exact ⟨hvalue, h.positive, hneg, h.atPositive_pos⟩
  · rw [if_pos (.inr rfl)]
    exact ⟨0, hvalue, .inl (close_self 0)⟩
  · -- the positive end moves
    simp only [if_neg hpos.not_gt, hpos.ne', or_false]
    split_ifs with hstop
    · exact ⟨value, hvalue, .inr ⟨s.positive, s.atPositive, s.negative, s.atNegative, h.positive, h.negative,
        mul_pos hpos h.atPositive_pos, mul_neg_of_pos_of_neg hpos h.atNegative_neg, hstop, hdistances.symm⟩⟩
    · exact ⟨h.negative, hvalue, h.atNegative_neg, hpos⟩

theorem brackets (accuracy low high : ℝ) :
    method.Brackets accuracy low high Holds (Stalled accuracy) where
  start _ _ hb := start_holds hb
  tail _ _ entry h := { h with negative := h.negative.tail entry, positive := h.positive.tail entry }
  point _ _ inside h :=
    point_between h.atNegative_neg h.atPositive_pos (inside.of_valued h.negative)
      (inside.of_valued h.positive)
  absorb _ _ _ _ h hy := absorb_holds h hy

/-- **Where false position stops.** A root that is returned for a function `f` lies in the bracket. Its value
is close to zero, or it is where the chord from `a` to `b` crosses zero, two points of the bracket that the
solver has evaluated: `f` has the sign of the root's value at `a`, which is within the accuracy, and the
opposite sign at `b`. The distance to `b` is as much longer than that to `a` as the value there is larger. So
there is a sign change within the accuracy if the value at `b` is no larger than that at `a`; otherwise it may
be as far away as `b`. -/
theorem falsePosition_stalls (budget : Nat) (f : ℝ → ℝ) (accuracy guess low high : ℝ) {r : ℝ}
    (found : ((Solver.mk .falsePosition budget).solve (Objective.ofReal f) accuracy guess low high ()).1 =
      .ok r) :
    (low ≤ r ∧ r ≤ high) ∧
      (close (f r) 0 = true ∨
        ∃ a b, Valued ((Solver.mk .falsePosition budget).evaluations (Objective.ofReal f) accuracy guess low
            high ()) a (f a) ∧
          Valued ((Solver.mk .falsePosition budget).evaluations (Objective.ofReal f) accuracy guess low
            high ()) b (f b) ∧
          (low ≤ a ∧ a ≤ high) ∧ (low ≤ b ∧ b ≤ high) ∧ 0 < f r * f a ∧ f r * f b < 0 ∧
          |a - r| < Max.max accuracy epsilon ∧ |b - r| * |f a| = |a - r| * |f b| ∧
          (|f b| ≤ |f a| → |b - r| < Max.max accuracy epsilon)) := by
  obtain ⟨inside, accepted⟩ := Solver.solve_brackets (Solver.mk .falsePosition budget) (Objective.ofReal f)
    accuracy guess () (brackets _ low high)
  obtain ⟨v, root, hv⟩ := accepted r found
  refine ⟨inside.of_valued root, ?_⟩
  obtain rfl := Solver.valued_ofReal root
  refine hv.imp id ?_
  rintro ⟨a, va, b, vb, ha, hb, same, opposite, near, distances⟩
  obtain rfl := Solver.valued_ofReal ha
  obtain rfl := Solver.valued_ofReal hb
  refine ⟨a, b, ha, hb, inside.of_valued ha, inside.of_valued hb, same, opposite, near, distances, ?_⟩
  intro hsmaller
  have hpositive : 0 < |f a| := abs_pos.mpr (right_ne_zero_of_mul same.ne')
  refine lt_of_le_of_lt (le_of_mul_le_mul_right ?_ hpositive) near
  rw [distances]
  exact mul_le_mul_of_nonneg_left hsmaller (abs_nonneg _)

/-- The curve `x ^ 9 - 1` between `0` and `3` is so steep at the upper end that the first chord crosses zero
next to the lower one. -/
theorem ninthPower_found :
    ((Solver.mk .falsePosition 3).solve (Objective.ofReal fun x => x ^ 9 - 1) (1 / 1000) 2 0 3 ()).1 =
      .ok (1 / 6561) := by
  have start : start (⟨0, 3, 0 ^ 9 - 1, 3 ^ 9 - 1, 2⟩ : Bracket ℝ) = ⟨0, -1, 3, 19682⟩ := by
    norm_num [start]
  have point : point (⟨0, -1, 3, 19682⟩ : State ℝ) = 1 / 6561 := by
    norm_num [point]
  have stop : absorb (Max.max (1 / 1000) epsilon) ⟨0, -1, 3, 19682⟩ ((1 / 6561) ^ 9 - 1 : ℝ) =
      .root (1 / 6561) := by
    norm_num [absorb, FalsePosition.point, abs_real]
  rw [Solver.solve_ofReal .falsePosition 1 (by norm_num) (by norm_num) (by norm_num)
    (not_close_zero (by norm_num)) (not_close_zero (by norm_num)) (by norm_num), Method.search_ofReal]
  simp only [Algorithm.method, method, start, point, stop]

/-- There the search stops at its first point. -/
theorem falsePosition_stalls_ninthPower :
    ((Solver.mk .falsePosition 3).solve (Objective.ofReal fun x => x ^ 9 - 1) (1 / 1000) 2 0 3 ()).1 =
        .ok (1 / 6561) ∧
      ((0 : ℝ) ≤ 1 / 6561 ∧ (1 / 6561 : ℝ) ≤ 3) ∧
      (close ((1 / 6561 : ℝ) ^ 9 - 1) 0 = true ∨
        ∃ a b : ℝ, Valued ((Solver.mk .falsePosition 3).evaluations (Objective.ofReal fun x => x ^ 9 - 1)
            (1 / 1000) 2 0 3 ()) a (a ^ 9 - 1) ∧
          Valued ((Solver.mk .falsePosition 3).evaluations (Objective.ofReal fun x => x ^ 9 - 1)
            (1 / 1000) 2 0 3 ()) b (b ^ 9 - 1) ∧
          (0 ≤ a ∧ a ≤ 3) ∧ (0 ≤ b ∧ b ≤ 3) ∧ 0 < ((1 / 6561 : ℝ) ^ 9 - 1) * (a ^ 9 - 1) ∧
          ((1 / 6561 : ℝ) ^ 9 - 1) * (b ^ 9 - 1) < 0 ∧ |a - 1 / 6561| < Max.max (1 / 1000) epsilon ∧
          |b - 1 / 6561| * |a ^ 9 - 1| = |a - 1 / 6561| * |b ^ 9 - 1| ∧
          (|b ^ 9 - 1| ≤ |a ^ 9 - 1| → |b - 1 / 6561| < Max.max (1 / 1000) epsilon)) :=
  ⟨ninthPower_found, falsePosition_stalls 3 (fun x => x ^ 9 - 1) (1 / 1000) 2 0 3 ninthPower_found⟩

/-- But the curve is negative at this root and at all points within the accuracy of it. -/
theorem falsePosition_stalls_early :
    ((Solver.mk .falsePosition 3).solve (Objective.ofReal fun x => x ^ 9 - 1) (1 / 1000) 2 0 3 ()).1 =
        .ok (1 / 6561) ∧
      close ((1 / 6561 : ℝ) ^ 9 - 1) 0 = false ∧ (1 / 6561 : ℝ) ^ 9 - 1 < 0 ∧
      ∀ y : ℝ, 0 ≤ y → y ≤ 3 → |y - 1 / 6561| ≤ Max.max (1 / 1000) epsilon → y ^ 9 - 1 < 0 := by
  refine ⟨ninthPower_found, not_close_zero (by norm_num), by norm_num, fun y hy _ hnear => ?_⟩
  have haccuracy : Max.max (1 / 1000 : ℝ) epsilon = 1 / 1000 := max_eq_left (by norm_num [epsilon])
  rw [haccuracy] at hnear
  have hbelow : y < 1 := by linarith [(abs_le.mp hnear).2]
  linarith [pow_lt_one₀ hy hbelow (by norm_num : (9 : Nat) ≠ 0)]

end FalsePosition

end RateCurves
