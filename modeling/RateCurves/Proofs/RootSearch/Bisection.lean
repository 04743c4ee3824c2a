import RateCurves.Proofs.RootSearch.History

/-!
# Bisection brackets

In exact arithmetic the ends of the interval have always been evaluated, one with a value that is not
positive and the other with a positive one (`Holds`). When the method stops, the root has a value close
to zero, or one that is not positive with a positive value within the accuracy (`Crossed`).
-/

namespace RateCurves

open Scalar

variable {log : History ℝ} {accuracy low high : ℝ}

namespace Bisection

/-- The root has a value that is not positive, the other end of the interval a positive one. -/
def Holds (log : History ℝ) (s : State ℝ) : Prop :=
  (∃ v, Valued log s.root v ∧ v ≤ 0) ∧ ∃ w, Valued log (s.root + s.width) w ∧ 0 < w

/-- The value `v` at `x` is not positive, and a positive value lies within the accuracy. -/
def Crossed (accuracy : ℝ) (log : History ℝ) (x v : ℝ) : Prop :=
  v ≤ 0 ∧ ∃ y w, Valued log y w ∧ 0 < w ∧ |y - x| < accuracy

theorem start_holds {b : Bracket ℝ} (hb : b.Proper log low high) : Holds log (start b) := by
  have hLow : Valued log b.low b.atLow := by rw [hb.low_eq]; exact hb.atLow
  have hHigh : Valued log b.high b.atHigh := by rw [hb.high_eq]; exact hb.atHigh
  unfold start
  rw [lit_zero]
  split_ifs with hneg
  · refine ⟨⟨b.atLow, hLow, hneg.le⟩, b.atHigh, ?_, pos_of_mul_neg_right hb.opposite hneg.le⟩
    rwa [add_sub_cancel]
  · have hpos : 0 ≤ b.atLow := not_lt.mp hneg
    have hlow : 0 < b.atLow := lt_of_le_of_ne hpos (left_ne_zero_of_mul hb.opposite.ne).symm
    refine ⟨⟨b.atHigh, hHigh, (neg_of_mul_neg_right hb.opposite hpos).le⟩, b.atLow, ?_, hlow⟩
    rwa [add_sub_cancel]

theorem absorb_holds {s : State ℝ} {value : ℝ} (h : Holds log s) (hvalue : Valued log (point s) value) :
    (absorb accuracy s value).Meets (Accepted (Crossed accuracy) log) (Holds log) := by
  obtain ⟨⟨v, hv, hv0⟩, w, hw, hw0⟩ := h
  rw [point, lit_two] at hvalue
  unfold absorb
  simp only [lit_zero, lit_two, abs_real]
  -- whichever half is kept, its ends have been evaluated and its values have the right signs
  have halved : Holds log ⟨if value ≤ 0 then s.root + s.width / 2 else s.root, s.width / 2⟩ := by
    split_ifs with hle
    · refine ⟨⟨value, hvalue, hle⟩, w, ?_, hw0⟩
      rwa [add_assoc, add_halves]
    · exact ⟨⟨v, hv, hv0⟩, value, hvalue, not_le.mp hle⟩
  generalize (if value ≤ 0 then s.root + s.width / 2 else s.root) = root at halved ⊢
  split_ifs with hclose hshort
  · exact ⟨value, hvalue, .inl hclose⟩
  · obtain ⟨⟨v, hv, hv0⟩, w, hw, hw0⟩ := halved
    refine ⟨v, hv, .inr ⟨hv0, root + s.width / 2, w, hw, hw0, ?_⟩⟩
    rwa [add_sub_cancel_left]
  · exact halved

theorem brackets (accuracy low high : ℝ) :
    method.Brackets accuracy low high Holds (Crossed accuracy) where
  start _ _ hb := start_holds hb
  tail log s entry h := by
    obtain ⟨⟨v, hv, hv0⟩, w, hw, hw0⟩ := h
    exact ⟨⟨v, hv.tail entry, hv0⟩, w, hw.tail entry, hw0⟩
  point log s inside h := by
    obtain ⟨⟨v, hv, -⟩, w, hw, -⟩ := h
    have hroot := inside.of_valued hv
    have hother := inside.of_valued hw
    show low ≤ s.root + s.width / 2.0 ∧ s.root + s.width / 2.0 ≤ high
    rw [lit_two]
    constructor <;> linarith
  absorb log s y _ h hy := absorb_holds h hy

end Bisection

/-- Bisection does not look at the guess. -/
theorem Solver.solve_guess {σ : Type} {solver : Solver} (h : solver.algorithm = .bisection)
    (f : Objective σ ℝ) (accuracy : ℝ) {guess guess' low high : ℝ} (hguess : low < guess ∧ guess < high)
    (hguess' : low < guess' ∧ guess' < high) :
    solver.solve f accuracy guess low high = solver.solve f accuracy guess' low high := by
  obtain ⟨algorithm, budget⟩ := solver
  obtain rfl : algorithm = .bisection := h
  unfold solve
  rw [decide_eq_true hguess.1, decide_eq_true hguess.2, decide_eq_true hguess'.1, decide_eq_true hguess'.2]
  rfl

end RateCurves
