import RateCurves.Proofs.RootSearch.Bisection
import RateCurves.Proofs.RootSearch.Budget

/-!
# The cost of bisection

A step of bisection that goes on has halved the width of the interval and left it no shorter than the
accuracy (`Bisection.absorb_halves`). So once `n` halvings would bring the width below the accuracy, `n`
evaluations are enough (`Method.search_within`), and together with the two ends of the bracket that is what a
call costs, known before it is made (`Bisection.bisection_cost`).
-/

namespace RateCurves

open Scalar Trial

/-! ## Functions of the real numbers, with their history -/

theorem Objective.evaluate_logged_ofReal (f : ℝ → ℝ) (budget left : Nat) (x : ℝ) (log : History ℝ) :
    (Objective.ofReal f).logged.evaluate budget (left + 1) x ((), log) =
      (.ok (f x), (), (x, .ok (f x)) :: log) := by
  rw [Objective.evaluate_succ, Objective.logged_apply]
  simp [Objective.ofReal, Objective.ofFunction, ofOutcome_apply]

theorem Solver.solve_logged_ofReal (algorithm : Algorithm) (budget : Nat) {f : ℝ → ℝ}
    {accuracy guess low high : ℝ} (positive : 0 < accuracy) (above : low < guess) (below : guess < high)
    (crossing : f low * f high ≤ 0) :
    (Solver.mk algorithm (budget + 2)).solve (Objective.ofReal f).logged accuracy guess low high ((), []) =
      if close (f low) 0 then (.ok low, (), [(low, .ok (f low))])
      else if close (f high) 0 then (.ok high, (), [(high, .ok (f high)), (low, .ok (f low))])
      else algorithm.method.search (Objective.ofReal f).logged (Max.max accuracy epsilon) (budget + 2) budget
        (algorithm.method.start ⟨low, high, f low, f high, guess⟩)
        ((), [(high, .ok (f high)), (low, .ok (f low))]) := by
  have proper := above.trans below
  have one_left : budget + 2 - 1 = budget + 1 := rfl
  unfold Solver.solve
  simp only [bind_apply, one_left, Objective.evaluate_logged_ofReal, ofOutcome_apply, Outcome.require,
    lit_zero, max_real, positive, proper, above, below, decide_true, if_true, Nat.add_sub_cancel]
  split_ifs with hlow hhigh
  · rfl
  · simp only [bind_apply, Objective.evaluate_logged_ofReal, hhigh, if_true]
    rfl
  · simp only [bind_apply, Objective.evaluate_logged_ofReal, hhigh, crossing.not_gt, Bool.false_eq_true,
      if_false]
    rfl

/-- If each step that goes on takes one from the evaluations that a state needs, and no state needs none, a
search ends with a root as soon as it has made as many as it needs. -/
theorem Method.search_within (method : Method ℝ) (f : ℝ → ℝ) (accuracy : ℝ) (budget : Nat)
    (Needs : Nat → method.State → Prop) (some : ∀ state, ¬Needs 0 state)
    (step : ∀ n state y, Needs (n + 1) state →
      (method.absorb accuracy state y).Meets (fun _ => True) (Needs n)) (n : Nat) :
    ∀ left state (log : History ℝ), Needs n state → n ≤ left →
      (∃ r, (method.search (Objective.ofReal f).logged accuracy budget left state ((), log)).1 = .ok r) ∧
        (method.search (Objective.ofReal f).logged accuracy budget left state ((), log)).2.2.length ≤
          log.length + n := by
  induction n with
  | zero => exact fun _ state _ needs => absurd needs (some state)
  | succ n ih =>
    intro left state log needs hleft
    obtain ⟨left, rfl⟩ : ∃ left', left = left' + 1 := ⟨left - 1, by omega⟩
    have next := step n state (f (method.point state)) needs
    rw [Method.search, bind_apply, Objective.evaluate_logged_ofReal]
    revert next
    simp only
    cases method.absorb accuracy state (f (method.point state)) with
    | root x =>
      refine fun _ => ⟨⟨x, rfl⟩, ?_⟩
      show log.length + 1 ≤ log.length + (n + 1)
      omega
    | next state' =>
      intro needs'
      obtain ⟨found, within⟩ := ih left state' ((method.point state, .ok (f (method.point state))) :: log)
        needs' (Nat.le_of_succ_le_succ hleft)
      refine ⟨found, within.trans ?_⟩
      rw [List.length_cons]
      omega

/-! ## Halving -/

namespace Bisection

variable {accuracy : ℝ}

theorem start_width (b : Bracket ℝ) : |(start b).width| = |b.high - b.low| := by
  unfold start
  split_ifs
  · rfl
  · exact abs_sub_comm _ _

/-- A step that goes on has halved the width, and left it no shorter than the accuracy. -/
theorem absorb_halves (accuracy : ℝ) (s : State ℝ) (value : ℝ) :
    (absorb accuracy s value).Meets (fun _ => True)
      fun next => |next.width| = |s.width| / 2 ∧ accuracy ≤ |next.width| := by
  unfold absorb
  simp only [lit_zero, lit_two, abs_real]
  generalize (if value ≤ 0 then s.root + s.width / 2 else s.root) = root
  split_ifs with _ hshort
  · exact trivial
  · exact trivial
  · exact ⟨by rw [abs_div, abs_two], not_lt.mp hshort⟩

/-- At least one halving, and enough to bring the width below the accuracy. -/
structure Needs (accuracy : ℝ) (n : Nat) (s : State ℝ) : Prop where
  positive : 1 ≤ n
  enough : |s.width| / 2 ^ n < accuracy

theorem absorb_needs {n : Nat} {s : State ℝ} (value : ℝ) (h : Needs accuracy (n + 1) s) :
    (absorb accuracy s value).Meets (fun _ => True) (Needs accuracy n) := by
  have halved := absorb_halves accuracy s value
  revert halved
  cases absorb accuracy s value with
  | root x => exact id
  | next s' =>
    rintro ⟨hhalf, hlong⟩
    have hwidth : |s'.width| / 2 ^ n < accuracy := by
      rw [hhalf, div_div, ← pow_succ']
      exact h.enough
    refine ⟨Nat.one_le_iff_ne_zero.mpr ?_, hwidth⟩
    rintro rfl
    rw [pow_zero, div_one] at hwidth
    exact hwidth.not_ge hlong

theorem exists_halvings (width : ℝ) (positive : 0 < accuracy) :
    ∃ k, IsLeast {k : ℕ | 1 ≤ k ∧ width / 2 ^ k < accuracy} k := by
  classical
  obtain ⟨n, hn⟩ := pow_unbounded_of_one_lt (width / accuracy) one_lt_two
  have enough : ∃ k : ℕ, 1 ≤ k ∧ width / 2 ^ k < accuracy := by
    refine ⟨n + 1, Nat.le_add_left 1 n, ?_⟩
    rw [div_lt_comm₀ (by positivity) positive]
    exact hn.trans (pow_lt_pow_right₀ one_lt_two (Nat.lt_succ_self n))
  exact ⟨Nat.find enough, Nat.find_spec enough, fun k hk => Nat.find_min' enough hk⟩

/-- **The cost of bisection is known in advance.** In a bracket of width `w` with values of opposite signs at
its ends, or a zero there, let `k` be the least number of halvings, at least one, that bring `w` below the
accuracy. A call for a function `f` makes at most `2 + k` evaluations, and if its budget allows them it
returns a root: the value of `f` there is close to zero, or it is not positive and `f` has been found
positive at a point within the accuracy. -/
theorem bisection_cost (f : ℝ → ℝ) {accuracy guess low high : ℝ} (positive : 0 < accuracy)
    (above : low < guess) (below : guess < high) (crossing : f low * f high ≤ 0) :
    ∃ k, IsLeast {k : ℕ | 1 ≤ k ∧ (high - low) / 2 ^ k < Max.max accuracy epsilon} k ∧
      (∀ budget, ((Solver.mk .bisection budget).evaluations (Objective.ofReal f) accuracy guess low high
        ()).length ≤ 2 + k) ∧
      ∀ budget, 2 + k ≤ budget →
        ∃ r, ((Solver.mk .bisection budget).solve (Objective.ofReal f) accuracy guess low high ()).1 =
            .ok r ∧
          (close (f r) 0 = true ∨
            f r ≤ 0 ∧ ∃ y, Valued ((Solver.mk .bisection budget).evaluations (Objective.ofReal f) accuracy
              guess low high ()) y (f y) ∧ 0 < f y ∧ |y - r| < Max.max accuracy epsilon) := by
  obtain ⟨k, hk⟩ := exists_halvings (high - low) (accuracy_pos accuracy)
  have enough (budget : Nat) (h : 2 + k ≤ budget) :
      (∃ r, ((Solver.mk .bisection budget).solve (Objective.ofReal f).logged accuracy guess low high
        ((), [])).1 = .ok r) ∧
      ((Solver.mk .bisection budget).evaluations (Objective.ofReal f) accuracy guess low high ()).length ≤
        2 + k := by
    obtain ⟨left, rfl⟩ : ∃ left, budget = left + 2 := ⟨budget - 2, by omega⟩
    have needs : Needs (Max.max accuracy epsilon) k (start ⟨low, high, f low, f high, guess⟩) := by
      refine ⟨hk.1.1, ?_⟩
      rw [start_width, abs_of_pos (sub_pos.mpr (above.trans below))]
      exact hk.1.2
    have search := method.search_within f (Max.max accuracy epsilon) (left + 2)
      (Needs (Max.max accuracy epsilon)) (fun _ h => absurd h.positive (by decide)) (fun _ _ y => absorb_needs y) k
      left _ [(high, .ok (f high)), (low, .ok (f low))] needs (by omega)
    unfold Solver.evaluations
    rw [Solver.solve_logged_ofReal .bisection left positive above below crossing]
    split_ifs
    · exact ⟨⟨low, rfl⟩, Nat.le_add_right_of_le (by decide : 1 ≤ 2)⟩
    · exact ⟨⟨high, rfl⟩, Nat.le_add_right 2 k⟩
    · exact search
  refine ⟨k, hk, fun budget => ?_, fun budget h => ?_⟩
  · rcases Nat.le_total (2 + k) budget with h | h
    · exact (enough budget h).2
    · exact (Solver.evaluations_settled ⟨.bisection, budget⟩ _ _ _ _ _ _).1.trans h
  · obtain ⟨r, found⟩ := (enough budget h).1
    rw [(Solver.solve_logged _ _ _ _ _ _ () []).1] at found
    refine ⟨r, found, ?_⟩
    obtain ⟨v, root, hv⟩ := (Solver.solve_brackets (Solver.mk .bisection budget) (Objective.ofReal f)
      accuracy guess () (brackets _ low high)).2 r found
    obtain rfl := Solver.valued_ofReal root
    refine hv.imp id ?_
    rintro ⟨hnonpos, y, w, across, hpos, near⟩
    obtain rfl := Solver.valued_ofReal across
    exact ⟨hnonpos, y, across, hpos, near⟩

/-- For the falling line `1 / 3 - x` between `0` and `2`, with the root across the first middle. -/
theorem bisection_cost_fallingLine :
    (0 : ℝ) < 1 / 10 ∧ (0 : ℝ) < 1 ∧ (1 : ℝ) < 2 ∧ (1 / 3 - 0 : ℝ) * (1 / 3 - 2) ≤ 0 ∧
      ∃ k, IsLeast {k : ℕ | 1 ≤ k ∧ ((2 : ℝ) - 0) / 2 ^ k < Max.max (1 / 10) epsilon} k ∧
        (∀ budget, ((Solver.mk .bisection budget).evaluations (Objective.ofReal fun x => 1 / 3 - x) (1 / 10)
          1 0 2 ()).length ≤ 2 + k) ∧
        ∀ budget, 2 + k ≤ budget →
          ∃ r, ((Solver.mk .bisection budget).solve (Objective.ofReal fun x => 1 / 3 - x) (1 / 10) 1 0 2
              ()).1 = .ok r ∧
            (close (1 / 3 - r) 0 = true ∨
              1 / 3 - r ≤ 0 ∧ ∃ y, Valued ((Solver.mk .bisection budget).evaluations
                (Objective.ofReal fun x => 1 / 3 - x) (1 / 10) 1 0 2 ()) y (1 / 3 - y) ∧ 0 < 1 / 3 - y ∧
                |y - r| < Max.max (1 / 10) epsilon) := by
  have positive : (0 : ℝ) < 1 / 10 := by norm_num
  have above : (0 : ℝ) < 1 := by norm_num
  have below : (1 : ℝ) < 2 := by norm_num
  have crossing : (1 / 3 - 0 : ℝ) * (1 / 3 - 2) ≤ 0 := by norm_num
  exact ⟨positive, above, below, crossing,
    bisection_cost (fun x => 1 / 3 - x) positive above below crossing⟩

end Bisection

end RateCurves
