import RateCurves.Proofs.RootSearch.History

/-!
# Brent's method brackets

In exact arithmetic the point across the root has always been evaluated, with a value of the opposite
sign, and the next point lies between it and the best point. Each part of a turn keeps this:
`rebracket` restores the opposite signs, `order` makes the better of the two points the root, and no
choice of step leaves the interval between them (`move_between`). So a root that is returned has a
value close to zero, or a point within tolerance where the objective has a value of the opposite sign
that is no smaller (`brent_crosses_near_root`).
-/

namespace RateCurves

open Scalar

namespace Brent

variable {log : History ℝ} {p : Points ℝ} {accuracy low high value : ℝ}

/-- The root has the given value, and the point across it a value on the other side of zero. -/
structure Faces (log : History ℝ) (p : Points ℝ) (value : ℝ) : Prop where
  root : Valued log p.root value
  across : Valued log p.across p.atAcross
  atAcross_ne : p.atAcross ≠ 0
  sides : value * p.atAcross ≤ 0

/-! ## The parts of a turn -/

theorem rebracket_faces (root : Valued log p.root value)
    (previous : Valued log p.previous p.atPrevious) (across : Valued log p.across p.atAcross)
    (hne : p.atAcross ≠ 0) (hopp : 0 < value * p.atAcross → p.atPrevious * p.atAcross < 0) :
    Faces log (rebracket p value) value := by
  unfold rebracket
  simp only [lit_zero, Bool.or_eq_true, Bool.and_eq_true, decide_eq_true_eq]
  split_ifs with h
  · have hsame : 0 < value * p.atAcross := by
      rcases h with ⟨hv, ha⟩ | ⟨hv, ha⟩
      · exact mul_pos hv ha
      · exact mul_pos_of_neg_of_neg hv ha
    have hprev := hopp hsame
    refine ⟨root, previous, left_ne_zero_of_mul hprev.ne, ?_⟩
    rcases h with ⟨hv, ha⟩ | ⟨hv, ha⟩
    · exact mul_nonpos_of_nonneg_of_nonpos hv.le (neg_of_mul_neg_left hprev ha.le).le
    · exact mul_nonpos_of_nonpos_of_nonneg hv.le (pos_of_mul_neg_left hprev ha.le).le
  · refine ⟨root, across, hne, ?_⟩
    by_contra hpos
    exact h (pos_and_pos_or_neg_and_neg_of_mul_pos (not_le.mp hpos))

theorem order_faces (h : Faces log p value) :
    Faces log (order p value).1 (order p value).2 ∧
      |(order p value).2| ≤ |(order p value).1.atAcross| := by
  unfold order
  simp only [abs_real]
  split_ifs with hlt
  · have hne : value ≠ 0 := abs_pos.mp (lt_of_le_of_lt (abs_nonneg _) hlt)
    exact ⟨⟨h.across, h.root, hne, by rw [mul_comm]; exact h.sides⟩, hlt.le⟩
  · exact ⟨h, not_lt.mp hlt⟩

/-- A step that is accepted goes towards the point across the root, at most three quarters of the
way. -/
theorem chooseStep_between (p : Points ℝ) (value tol middle : ℝ) :
    0 ≤ (chooseStep p value tol middle).1 * middle ∧
      |(chooseStep p value tol middle).1| ≤ 3 / 2 * |middle| := by
  have halve : 0 ≤ middle * middle ∧ |middle| ≤ 3 / 2 * |middle| :=
    ⟨mul_self_nonneg middle, by linarith [abs_nonneg middle]⟩
  unfold chooseStep
  split_ifs with htry
  · generalize interpolated p value middle = r
    obtain ⟨p₀, q₀⟩ := r
    simp only [lit_zero, lit_two, lit_three, abs_real, min_real]
    generalize (if 0 < p₀ then -q₀ else q₀) = q
    split_ifs with hlt
    · have hinside : 2 * |p₀| < 3 * middle * q - |tol * q| := lt_of_lt_of_le hlt (min_le_left _ _)
      have hp := abs_nonneg p₀
      have htq := abs_nonneg (tol * q)
      have hq : 0 < middle * q := by linarith
      have hq0 : q ≠ 0 := right_ne_zero_of_mul hq.ne'
      have hmq : middle * q = |middle| * |q| := by rw [← abs_mul, abs_of_pos hq]
      refine ⟨?_, ?_⟩
      · have : |p₀| / q * middle = |p₀| * (middle * q) / (q * q) := by field_simp
        rw [this]
        exact div_nonneg (mul_nonneg hp hq.le) (mul_self_nonneg q)
      · rw [abs_div, abs_abs, div_le_iff₀ (abs_pos.mpr hq0)]
        linarith
    · exact halve
  · exact halve

/-- The next point lies between the root and the point across it. -/
theorem move_between {tol middle step root across : ℝ} (htol : 0 < tol)
    (hmiddle : middle = 1 / 2 * (across - root)) (hfar : tol < |middle|)
    (hside : 0 ≤ step * middle) (hlength : |step| ≤ 3 / 2 * |middle|)
    (hroot : low ≤ root ∧ root ≤ high) (hacross : low ≤ across ∧ across ≤ high) :
    low ≤ root + (if tol < Scalar.abs step then step else if 0 < middle then tol else -tol) ∧
      root + (if tol < Scalar.abs step then step else if 0 < middle then tol else -tol) ≤ high := by
  have habs := abs_le.mp hlength
  rw [abs_real]
  rcases lt_or_ge 0 middle with hpos | hneg
  · rw [abs_of_pos hpos] at hfar habs
    have hstep : 0 ≤ step := nonneg_of_mul_nonneg_left hside hpos
    rw [if_pos hpos]
    split_ifs <;> constructor <;> linarith
  · rw [abs_of_nonpos hneg] at hfar habs
    have hmid : middle < 0 := by linarith
    have hstep : step ≤ 0 := nonpos_of_mul_nonneg_left hside hmid
    rw [if_neg (not_lt.mpr hneg)]
    split_ifs <;> constructor <;> linarith

/-! ## A turn -/

/-- Within tolerance of `x`, whose value is `v`, lies a point with a value of the opposite sign that is
no smaller. -/
def Straddled (accuracy : ℝ) (log : History ℝ) (x v : ℝ) : Prop :=
  ∃ y w, Valued log y w ∧ v * w < 0 ∧ |v| ≤ |w| ∧ |y - x| ≤ reach accuracy x

/-- What a history says about the states of a search. -/
def Holds (low high : ℝ) (log : History ℝ) : State ℝ → Prop
  | .opening b => b.Proper log low high
  | .running p => (low ≤ p.root ∧ p.root ≤ high) ∧ Valued log p.previous p.atPrevious ∧
      Valued log p.across p.atAcross ∧ p.atPrevious * p.atAcross < 0

theorem turn_holds (hacc : 0 < accuracy) (inside : Inside low high log)
    (root : Valued log p.root value) (previous : Valued log p.previous p.atPrevious)
    (across : Valued log p.across p.atAcross) (hne : p.atAcross ≠ 0)
    (hopp : 0 < value * p.atAcross → p.atPrevious * p.atAcross < 0) :
    (turn accuracy p value).Meets (Accepted (Straddled accuracy) log) (Holds low high log) := by
  obtain ⟨faces, hsmall⟩ := order_faces (rebracket_faces root previous across hne hopp)
  unfold turn
  rw [lit_zero]
  revert faces hsmall
  generalize order (rebracket p value) value = r
  obtain ⟨q, v⟩ := r
  intro faces hsmall
  simp only at faces hsmall ⊢
  have htol : leastStep accuracy q.root = 2 * epsilon * |q.root| + 1 / 2 * accuracy := by
    rw [leastStep, lit_two, lit_half, abs_real]
  have htol_pos : 0 < leastStep accuracy q.root := by
    have := mul_nonneg epsilon_pos.le (abs_nonneg q.root)
    rw [htol]
    linarith
  have hmiddle : (0.5 : ℝ) * (q.across - q.root) = 1 / 2 * (q.across - q.root) := by rw [lit_half]
  have strict (hv : v ≠ 0) : v * q.atAcross < 0 :=
    lt_of_le_of_ne faces.sides (mul_ne_zero hv faces.atAcross_ne)
  by_cases hstop : (decide (Scalar.abs (0.5 * (q.across - q.root)) ≤ leastStep accuracy q.root) ||
      close v 0) = true
  · -- the bracket is within tolerance, or the value at the root is close to zero
    rw [if_pos hstop]
    refine ⟨v, faces.root, ?_⟩
    rcases h : close v 0 with _ | _
    · refine .inr ⟨q.across, q.atAcross, faces.across, strict (ne_zero_of_not_close h), hsmall, ?_⟩
      simp only [h, Bool.or_false, decide_eq_true_eq] at hstop
      rw [abs_real, hmiddle, htol, abs_mul, abs_of_pos (by norm_num : (0 : ℝ) < 1 / 2)] at hstop
      unfold reach
      linarith
    · exact .inl rfl
  · rw [if_neg hstop]
    simp only [Bool.or_eq_true, decide_eq_true_eq, not_or, not_le, Bool.not_eq_true] at hstop
    obtain ⟨hfar, hopen⟩ := hstop
    rw [abs_real, hmiddle] at hfar
    rw [hmiddle]
    have hstep := chooseStep_between q v (leastStep accuracy q.root) (1 / 2 * (q.across - q.root))
    exact ⟨move_between htol_pos rfl hfar hstep.1 hstep.2 (inside.of_valued faces.root)
      (inside.of_valued faces.across), faces.root, faces.across, strict (ne_zero_of_not_close hopen)⟩

theorem opened_holds (hacc : 0 < accuracy) (inside : Inside low high log) {b : Bracket ℝ}
    (hb : b.Proper log low high) (root : Valued log b.guess value) :
    (turn accuracy (opened b value) value).Meets (Accepted (Straddled accuracy) log)
      (Holds low high log) := by
  have hlow : b.atLow ≠ 0 := left_ne_zero_of_mul hb.opposite.ne
  have hhigh : b.atHigh ≠ 0 := right_ne_zero_of_mul hb.opposite.ne
  have atLow : Valued log b.low b.atLow := by rw [hb.low_eq]; exact hb.atLow
  have atHigh : Valued log b.high b.atHigh := by rw [hb.high_eq]; exact hb.atHigh
  unfold opened
  rw [lit_zero]
  split_ifs with hside
  · exact turn_holds hacc inside root atLow atLow hlow fun hpos => absurd hside hpos.le.not_gt
  · refine turn_holds hacc inside root atHigh atHigh hhigh fun hpos => ?_
    -- the guess lies on the side of the low end, so not on that of the high end
    have hprod := mul_nonneg (not_lt.mp hside) hpos.le
    have : value * b.atLow * (value * b.atHigh) = value * value * (b.atLow * b.atHigh) := by ring
    have hsq : 0 < value * value := mul_self_pos.mpr (left_ne_zero_of_mul hpos.ne')
    linarith [mul_neg_of_pos_of_neg hsq hb.opposite]

theorem brackets (hacc : 0 < accuracy) (low high : ℝ) :
    method.Brackets accuracy low high (Holds low high) (Straddled accuracy) where
  start _ _ hb := hb
  tail log state entry h := by
    cases state with
    | opening b => exact h.tail entry
    | running p => exact ⟨h.1, h.2.1.tail entry, h.2.2.1.tail entry, h.2.2.2⟩
  point log state inside h := by
    cases state with
    | opening b => exact ⟨h.low_lt.le, h.lt_high.le⟩
    | running p => exact h.1
  absorb log state y inside h hy := by
    cases state with
    | opening b => exact opened_holds hacc inside h hy
    | running p =>
      exact turn_holds hacc inside hy h.2.1 h.2.2.1 (right_ne_zero_of_mul h.2.2.2.ne) fun _ => h.2.2.2

/-- **Brent's method finds sign changes.** A root that is returned for a function `f` has a value close
to zero, or the solver has evaluated `f` at a point of the bracket within tolerance of the root, where
its value has the opposite sign and is no smaller. -/
theorem brent_crosses_near_root (budget : Nat) (f : ℝ → ℝ) (accuracy guess low high : ℝ) {r : ℝ}
    (found : ((Solver.mk .brent budget).solve (Objective.ofReal f) accuracy guess low high ()).1 =
      .ok r) :
    close (f r) 0 = true ∨
      ∃ y, Valued ((Solver.mk .brent budget).evaluations (Objective.ofReal f) accuracy guess low high ())
          y (f y) ∧ low ≤ y ∧ y ≤ high ∧ f r * f y < 0 ∧ |f r| ≤ |f y| ∧
        |y - r| ≤ Max.max accuracy epsilon + 4 * epsilon * |r| := by
  obtain ⟨inside, accepted⟩ := Solver.solve_brackets (Solver.mk .brent budget)
    (Objective.ofReal f) accuracy guess () (brackets (accuracy_pos accuracy) low high)
  obtain ⟨v, root, hv⟩ := accepted r found
  obtain rfl := Solver.valued_ofReal root
  refine hv.imp id ?_
  rintro ⟨y, w, across, opposite, larger, near⟩
  obtain rfl := Solver.valued_ofReal across
  exact ⟨y, across, (inside.of_valued across).1, (inside.of_valued across).2, opposite, larger, near⟩

/-- A coarse search for the zero of `x - 1 / 2` between `0` and `2` stops at its guess. -/
theorem brent_crosses_near_guess :
    ((Solver.mk .brent 3).solve (Objective.ofReal fun x => x - 1 / 2) 10 1 0 2 ()).1 = .ok 1 ∧
      (close ((1 : ℝ) - 1 / 2) 0 = true ∨
        ∃ y, Valued ((Solver.mk .brent 3).evaluations (Objective.ofReal fun x => x - 1 / 2) 10 1 0 2 ())
            y (y - 1 / 2) ∧ 0 ≤ y ∧ y ≤ 2 ∧ ((1 : ℝ) - 1 / 2) * (y - 1 / 2) < 0 ∧
          |(1 : ℝ) - 1 / 2| ≤ |y - 1 / 2| ∧ |y - 1| ≤ Max.max 10 epsilon + 4 * epsilon * |(1 : ℝ)|) := by
  have found : ((Solver.mk .brent 3).solve (Objective.ofReal fun x => x - 1 / 2) 10 1 0 2 ()).1 =
      .ok 1 := by
    have stop : turn (Max.max 10 epsilon) (opened ⟨0, 2, 0 - 1 / 2, 2 - 1 / 2, 1⟩ (1 - 1 / 2))
        (1 - 1 / 2 : ℝ) = .root 1 := by
      norm_num [turn, opened, rebracket, order, leastStep, abs_real, epsilon]
    rw [Solver.solve_ofReal .brent 1 (by norm_num) (by norm_num) (by norm_num)
      (not_close_zero (by norm_num)) (not_close_zero (by norm_num)) (by norm_num),
      Method.search_ofReal]
    simp only [Algorithm.method, method, absorb, point, stop]
  exact ⟨found, brent_crosses_near_root 3 (fun x => x - 1 / 2) 10 1 0 2 found⟩

end Brent

end RateCurves
