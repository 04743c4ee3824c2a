import RateCurves.Proofs.RootSearch.Bisection
import RateCurves.Proofs.RootSearch.Brent
import RateCurves.Proofs.RootSearch.FalsePosition

/-!
# What all solvers have in common

In exact arithmetic no solver leaves its bracket, whatever the objective answers, and each returns only
roots it has evaluated (`root_valued`, `solve_inside_bracket`). Bisection and Brent's method return roots near
which the objective changes sign (`root_crosses`).
-/

namespace RateCurves

open Scalar

namespace Solver

variable {σ : Type}

/-- All evaluations lie in the bracket, and a root that is returned is one of them. -/
theorem root_valued (solver : Solver) (f : Objective σ ℝ) (accuracy guess low high : ℝ) (s : σ) :
    Inside low high (solver.evaluations f accuracy guess low high s) ∧
      ∀ r, (solver.solve f accuracy guess low high s).1 = .ok r →
        ∃ v, Valued (solver.evaluations f accuracy guess low high s) r v := by
  have forget {Found : History ℝ → ℝ → ℝ → Prop} {o : Outcome ℝ ℝ} {log : History ℝ}
      (h : Ends Found low high o log) :
      Inside low high log ∧ ∀ r, o = .ok r → ∃ v, Valued log r v :=
    ⟨h.1, fun r hr => (h.2 r hr).imp fun _ hv => hv.1⟩
  have positive := accuracy_pos accuracy
  obtain ⟨algorithm, budget⟩ := solver
  cases algorithm with
  | brent =>
    exact forget (solve_brackets ⟨.brent, budget⟩ f accuracy guess s
      (Brent.brackets positive low high))
  | bisection =>
    exact forget (solve_brackets ⟨.bisection, budget⟩ f accuracy guess s
      (Bisection.brackets _ low high))
  | falsePosition =>
    exact forget (solve_brackets ⟨.falsePosition, budget⟩ f accuracy guess s
      (FalsePosition.brackets _ low high))

/-- **No solver leaves its bracket.** Whatever the objective answers, every point it is asked for and
every root that is returned lies between the two ends. -/
theorem solve_inside_bracket (solver : Solver) (f : Objective σ ℝ) (accuracy guess low high : ℝ)
    (s : σ) :
    Inside low high (solver.evaluations f accuracy guess low high s) ∧
      ∀ r, (solver.solve f accuracy guess low high s).1 = .ok r → low ≤ r ∧ r ≤ high := by
  obtain ⟨inside, valued⟩ := solver.root_valued f accuracy guess low high s
  refine ⟨inside, fun r found => ?_⟩
  obtain ⟨v, hv⟩ := valued r found
  exact inside.of_valued hv

/-- False position finds the zero of `x - 1 / 2` between `0` and `2` where the chord crosses zero. -/
theorem solve_inside_chord :
    ((Solver.mk .falsePosition 3).solve (Objective.ofReal fun x => x - 1 / 2) 1 1 0 2 ()).1 =
        .ok (1 / 2) ∧
      (0 : ℝ) ≤ 1 / 2 ∧ (1 / 2 : ℝ) ≤ 2 := by
  have found : ((Solver.mk .falsePosition 3).solve (Objective.ofReal fun x => x - 1 / 2) 1 1 0 2 ()).1 =
      .ok (1 / 2) := by
    have start : FalsePosition.start (⟨0, 2, 0 - 1 / 2, 2 - 1 / 2, 1⟩ : Bracket ℝ) =
        ⟨0, -(1 / 2), 2, 3 / 2⟩ := by
      norm_num [FalsePosition.start]
    have point : FalsePosition.point (⟨0, -(1 / 2), 2, 3 / 2⟩ : FalsePosition.State ℝ) = 1 / 2 := by
      norm_num [FalsePosition.point]
    have stop : FalsePosition.absorb (Max.max 1 epsilon) ⟨0, -(1 / 2), 2, 3 / 2⟩ (1 / 2 - 1 / 2 : ℝ) =
        .root (1 / 2) := by
      norm_num [FalsePosition.absorb, FalsePosition.point]
    rw [Solver.solve_ofReal .falsePosition 1 (by norm_num) (by norm_num) (by norm_num)
      (not_close_zero (by norm_num)) (not_close_zero (by norm_num)) (by norm_num),
      Method.search_ofReal]
    simp only [Algorithm.method, FalsePosition.method, start, point, stop]
  exact ⟨found, (solve_inside_bracket _ _ 1 1 0 2 ()).2 (1 / 2) found⟩

/-- A root at the lower end of the bracket ends the search at once. -/
theorem solve_low (solver : Solver) {f : Objective σ ℝ} {accuracy guess low high v : ℝ}
    {s s' : σ} (haccuracy : 0 < accuracy) (hproper : low < high) (hbudget : 0 < solver.budget)
    (hlow : f low s = (.ok v, s')) (hclose : close v 0 = true) :
    solver.solve f accuracy guess low high s = (.ok low, s') := by
  obtain ⟨left, hleft⟩ : ∃ left, solver.budget = left + 1 := ⟨solver.budget - 1, by omega⟩
  have hvalue : f.evaluate solver.budget (left + 1) low s = (.ok v, s') := by
    rw [Objective.evaluate_succ, hlow]
    simp
  unfold solve
  rw [hleft] at hvalue ⊢
  simp only [Trial.bind_apply, Trial.ofOutcome_apply, Outcome.require, lit_zero, haccuracy, hproper,
    decide_true, if_true, hvalue, hclose]
  rfl

theorem solve_high (solver : Solver) {f : Objective σ ℝ} {accuracy guess low high v w : ℝ}
    {s s' s'' : σ} (haccuracy : 0 < accuracy) (hproper : low < high) (hbudget : 1 < solver.budget)
    (hlow : f low s = (.ok v, s')) (hopen : close v 0 = false) (hhigh : f high s' = (.ok w, s''))
    (hclose : close w 0 = true) : solver.solve f accuracy guess low high s = (.ok high, s'') := by
  obtain ⟨left, hleft⟩ : ∃ left, solver.budget = left + 2 := ⟨solver.budget - 2, by omega⟩
  have hlow : f.evaluate solver.budget (left + 2) low s = (.ok v, s') := by
    rw [Objective.evaluate_succ, hlow]
    simp
  have hhigh : f.evaluate solver.budget (left + 1) high s' = (.ok w, s'') := by
    rw [Objective.evaluate_succ, hhigh]
    simp
  have hless : left + 2 - 1 = left + 1 := rfl
  unfold solve
  rw [hleft] at hlow hhigh ⊢
  simp only [Trial.bind_apply, Trial.ofOutcome_apply, Outcome.require, lit_zero, haccuracy, hproper,
    decide_true, if_true, hlow, hopen, Bool.false_eq_true, if_false, hless, hhigh, hclose]
  rfl

theorem solve_error {α : Type} [Scalar α] (solver : Solver) {f : Objective σ α} {accuracy guess low high : α}
    {s s' : σ} {e : Failure α} (haccuracy : 0.0 < accuracy) (hproper : low < high) (hbudget : 0 < solver.budget)
    (hlow : f low s = (.error e, s')) : solver.solve f accuracy guess low high s = (.error e, s') := by
  obtain ⟨left, hleft⟩ : ∃ left, solver.budget = left + 1 := ⟨solver.budget - 1, by omega⟩
  have hvalue : f.evaluate solver.budget (left + 1) low s = (.error e, s') := by
    rw [Objective.evaluate_succ, hlow]
  unfold solve
  rw [hleft] at hvalue ⊢
  simp only [Trial.bind_apply, Trial.ofOutcome_apply, Outcome.require, haccuracy, hproper, decide_true, if_true,
    hvalue]

theorem evaluations_error {α : Type} [Scalar α] (solver : Solver) {f : Objective σ α}
    {accuracy guess low high : α} {s s' : σ} {e : Failure α} (haccuracy : 0.0 < accuracy) (hproper : low < high)
    (hbudget : 0 < solver.budget) (hlow : f low s = (.error e, s')) :
    solver.evaluations f accuracy guess low high s = [(low, .error e)] := by
  have hlogged : f.logged low (s, []) = (.error e, s', [(low, .error e)]) := by
    rw [Objective.logged_apply, hlow]
  rw [evaluations, solve_error solver haccuracy hproper hbudget hlogged]

/-- What a search that finds a root has seen at the ends of its bracket. -/
theorem root_ends {α : Type} [Scalar α] (solver : Solver) {f : Objective σ α}
    {accuracy guess low high r : α} {s : σ}
    (found : (solver.solve f accuracy guess low high s).1 = .ok r) :
    ∃ v, (f low s).1 = .ok v ∧ (close v 0.0 = true ∧ r = low ∨
      close v 0.0 = false ∧ ∃ w, (f high (f low s).2).1 = .ok w ∧ (close w 0.0 = true ∨ ¬0.0 < v * w)) := by
  unfold solve at found
  obtain ⟨-, -, found⟩ := Trial.bind_ok found
  obtain ⟨-, -, found⟩ := Trial.bind_ok found
  obtain ⟨v, hlow, found⟩ := Trial.bind_ok found
  have hlow' := Objective.evaluate_ok hlow
  simp only [Trial.ofOutcome_apply] at hlow hlow' found
  rw [hlow'] at hlow found
  refine ⟨v, hlow, ?_⟩
  cases hv : close v 0.0 with
  | true =>
    rw [hv] at found
    exact .inl ⟨rfl, (Except.ok.inj found).symm⟩
  | false =>
    rw [hv] at found
    obtain ⟨w, hhigh, found⟩ := Trial.bind_ok found
    have hhigh' := Objective.evaluate_ok hhigh
    rw [hhigh'] at hhigh found
    refine .inr ⟨rfl, w, hhigh, ?_⟩
    cases hw : close w 0.0 with
    | true => exact .inl rfl
    | false =>
      refine .inr fun hsame => ?_
      rw [hw] at found
      simp only [hsame, if_true] at found
      obtain ⟨-, found, -⟩ := Trial.bind_ok found
      cases found

/-- Where the objective has the same outcome at both ends, a root is the lower one, and its value is close
to zero. -/
theorem root_constant (solver : Solver) {f : Objective σ ℝ} {accuracy guess low high r : ℝ} {s : σ}
    (hsame : (f high (f low s).2).1 = (f low s).1)
    (found : (solver.solve f accuracy guess low high s).1 = .ok r) :
    r = low ∧ ∃ v, (f low s).1 = .ok v ∧ close v 0 = true := by
  obtain ⟨v, hv, ⟨hclose, hr⟩ | ⟨hopen, w, hw, hends⟩⟩ := solver.root_ends found
  · rw [lit_zero] at hclose
    exact ⟨hr, v, hv, hclose⟩
  · obtain rfl : v = w := Except.ok.inj (hv.symm.trans (hsame.symm.trans hw))
    rw [lit_zero] at hopen hends
    have hpositive : 0 < v * v := mul_self_pos.mpr (ne_zero_of_not_close hopen)
    rcases hends with hclose | hneg
    · cases hopen.symm.trans hclose
    · exact absurd hpositive hneg

/-- The objective has had the value `v` at `r`, which is close to zero, or a value of the opposite sign
within tolerance of `r`. -/
def Crosses (accuracy : ℝ) (log : History ℝ) (r v : ℝ) : Prop :=
  close v 0 = true ∨ ∃ y w, Valued log y w ∧ v * w < 0 ∧ |y - r| ≤ reach (Max.max accuracy epsilon) r

/-- A root returned by bisection or by Brent's method is one near which the objective changes sign. -/
theorem root_crosses {solver : Solver} (h : solver.algorithm ≠ .falsePosition) (f : Objective σ ℝ)
    (accuracy guess low high : ℝ) (s : σ) {r : ℝ}
    (found : (solver.solve f accuracy guess low high s).1 = .ok r) :
    ∃ v, Valued (solver.evaluations f accuracy guess low high s) r v ∧
      Crosses accuracy (solver.evaluations f accuracy guess low high s) r v := by
  have positive := accuracy_pos accuracy
  obtain ⟨algorithm, budget⟩ := solver
  cases algorithm with
  | brent =>
    have ends := solve_brackets ⟨.brent, budget⟩ f accuracy guess s
      (Brent.brackets positive low high)
    obtain ⟨v, root, hclose | ⟨y, w, across, opposite, -, near⟩⟩ := ends.2 r found
    · exact ⟨v, root, .inl hclose⟩
    · exact ⟨v, root, .inr ⟨y, w, across, opposite, near⟩⟩
  | bisection =>
    have ends := solve_brackets ⟨.bisection, budget⟩ f accuracy guess s
      (Bisection.brackets _ low high)
    obtain ⟨v, root, hclose | ⟨hv, y, w, across, hw, near⟩⟩ := ends.2 r found
    · exact ⟨v, root, .inl hclose⟩
    · refine ⟨v, root, ?_⟩
      rcases hv.eq_or_lt with rfl | hv
      · exact .inl (close_self 0)
      · have := mul_nonneg epsilon_pos.le (abs_nonneg r)
        refine .inr ⟨y, w, across, mul_neg_of_neg_of_pos hv hw, ?_⟩
        unfold reach
        linarith
  | falsePosition => exact absurd rfl h

end Solver

end RateCurves
