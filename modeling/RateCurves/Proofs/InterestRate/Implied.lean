import RateCurves.InterestRate.Basic
import RateCurves.Proofs.Failure.Outcome
import RateCurves.Proofs.Scalar.Real

/-!
# Rates from growth

In exact arithmetic the rate implied by a growth over a time has that growth over that time, and the
compound factor does not refuse it (`implied_compoundFactor`). Each of the two rules undoes itself; a mixed
convention compares the time with one period both ways, so it undoes the rule that it has used. A growth of
one, for which no rule is asked, is that of the rate zero under either rule.
-/

namespace RateCurves.InterestRate

open Scalar

variable {rate factor f t : ℝ} {dayCount : DayCount} {compounding : Compounding} {frequency : Frequency}
  {ir : InterestRate ℝ}

/-! ## The two rules -/

theorem simpleGrowth_simpleRate (ht : 0 < t) : simpleGrowth (simpleRate factor t) t = factor := by
  rw [simpleGrowth, simpleRate, lit_one, div_mul_cancel₀ _ ht.ne']
  ring

/-- One period grows by the root of the factor, which the periods up to `t` raise to the factor again. -/
theorem compoundedGrowth_compoundedRate (hfactor : 0 < factor) (hf : 0 < f) (ht : 0 < t) :
    compoundedGrowth (compoundedRate factor f t) f t = factor := by
  have hperiod : 1 + compoundedRate factor f t / f = factor ^ (1 / (f * t)) := by
    show 1 + (factor ^ ((1.0 : ℝ) / (f * t)) - 1.0) * f / f = _
    rw [lit_one, mul_div_cancel_right₀ _ hf.ne']
    ring
  have hperiods : f * t ≠ 0 := (mul_pos hf ht).ne'
  rw [compoundedGrowth, lit_one, hperiod]
  show (factor ^ (1 / (f * t))) ^ (f * t) = factor
  rw [← Real.rpow_mul hfactor.le, one_div_mul_cancel hperiods, Real.rpow_one]

theorem simpleGrowth_zero (t : ℝ) : simpleGrowth 0 t = 1 := by
  simp [simpleGrowth]

theorem compoundedGrowth_zero (f t : ℝ) : compoundedGrowth 0 f t = 1 := by
  rw [compoundedGrowth, lit_one, zero_div, add_zero]
  exact Real.one_rpow _

/-! ## All conventions -/

theorem periods_pos (h : periods frequency = .ok f) : 0 < f := by
  unfold periods at h
  cases frequency with
  | noFrequency | once => cases h
  | annual | semiannual | quarterly | bimonthly | monthly | weekly | daily =>
    cases h
    norm_num [ofNat_real]

theorem make_ok (h : make rate dayCount compounding frequency = .ok ir) :
    ir = ⟨rate, dayCount, compounding, frequency⟩ ∧
      (compounding.usesFrequency = true → ∃ f : ℝ, periods frequency = .ok f) := by
  unfold make at h
  cases huses : compounding.usesFrequency with
  | false =>
    rw [huses] at h
    cases h
    exact ⟨rfl, nofun⟩
  | true =>
    rw [huses] at h
    obtain ⟨f, hf, hir⟩ := Outcome.bind_ok.mp h
    cases hir
    exact ⟨rfl, fun _ => ⟨f, hf⟩⟩

theorem growth_zero (h : make 0 dayCount compounding frequency = .ok ir) (t : ℝ) : ir.growth t = .ok 1 := by
  obtain ⟨rfl, hregular⟩ := make_ok h
  cases compounding with
  | simple => exact congrArg Except.ok (simpleGrowth_zero t)
  | continuous =>
    show Except.ok (Real.exp (0 * t)) = _
    rw [zero_mul, Real.exp_zero]
  | compounded | simpleThenCompounded | compoundedThenSimple =>
    obtain ⟨f, hf⟩ := hregular rfl
    simp only [growth, hf, simpleGrowth_zero, compoundedGrowth_zero, ite_self]
    rfl

theorem growth_rateFor (hfactor : 0 < factor) (ht : 0 < t)
    (h : rateFor factor compounding frequency t = .ok rate) :
    (InterestRate.mk rate dayCount compounding frequency).growth t = .ok factor := by
  cases compounding with
  | simple =>
    cases h
    exact congrArg Except.ok (simpleGrowth_simpleRate ht)
  | continuous =>
    cases h
    show Except.ok (Real.exp (Real.log factor / t * t)) = _
    rw [div_mul_cancel₀ _ ht.ne', Real.exp_log hfactor]
  | compounded =>
    obtain ⟨f, hf, hrate⟩ := Outcome.bind_ok.mp h
    cases hrate
    refine Outcome.bind_ok.mpr ⟨f, hf, congrArg Except.ok ?_⟩
    exact compoundedGrowth_compoundedRate hfactor (periods_pos hf) ht
  | simpleThenCompounded | compoundedThenSimple =>
    obtain ⟨f, hf, hrate⟩ := Outcome.bind_ok.mp h
    cases hrate
    refine Outcome.bind_ok.mpr ⟨f, hf, congrArg Except.ok ?_⟩
    -- the comparison with the first period is the one that has chosen the rate
    by_cases hfirst : t ≤ 1.0 / f
    · simp only [if_pos hfirst, simpleGrowth_simpleRate ht,
        compoundedGrowth_compoundedRate hfactor (periods_pos hf) ht]
    · simp only [if_neg hfirst, simpleGrowth_simpleRate ht,
        compoundedGrowth_compoundedRate hfactor (periods_pos hf) ht]

theorem compoundFactor_eq (ht : 0 ≤ t) (hfactor : 0 < factor) (h : ir.growth t = .ok factor) :
    ir.compoundFactor t = .ok factor := by
  rw [← lit_zero] at ht hfactor
  exact Outcome.bind_ok.mpr ⟨(), Outcome.require_ok.mpr (decide_eq_true ht), Outcome.bind_ok.mpr
    ⟨factor, h, Outcome.bind_ok.mpr ⟨(), Outcome.require_ok.mpr (decide_eq_true hfactor), rfl⟩⟩⟩

/-- The rate implied by a growth keeps its day count and has this growth over the same time. -/
theorem implied_compoundFactor (h : implied factor dayCount compounding frequency t = .ok ir) :
    ir.dayCount = dayCount ∧ ir.compoundFactor t = .ok factor := by
  obtain ⟨⟨⟩, hpositive, h⟩ := Outcome.bind_ok.mp h
  have hfactor : 0 < factor := by
    rw [← lit_zero]
    exact of_decide_eq_true (Outcome.require_ok.mp hpositive)
  split at h
  · rename_i hone
    obtain ⟨⟨⟩, htime, hmade⟩ := Outcome.bind_ok.mp h
    have ht : 0 ≤ t := by
      rw [← lit_zero]
      exact of_decide_eq_true (Outcome.require_ok.mp htime)
    have hunit : factor = 1 := by rw [eq_of_beq hone, lit_one]
    rw [lit_zero] at hmade
    refine ⟨congrArg InterestRate.dayCount (make_ok hmade).1, ?_⟩
    exact compoundFactor_eq ht hfactor (hunit ▸ growth_zero hmade t)
  · obtain ⟨⟨⟩, htime, hmade⟩ := Outcome.bind_ok.mp h
    have ht : 0 < t := by
      rw [← lit_zero]
      exact of_decide_eq_true (Outcome.require_ok.mp htime)
    obtain ⟨rate, hrate, hmade⟩ := Outcome.bind_ok.mp hmade
    obtain ⟨rfl, -⟩ := make_ok hmade
    exact ⟨rfl, compoundFactor_eq ht.le hfactor (growth_rateFor hfactor ht hrate)⟩

theorem implied_exists (hfactor : 0 < factor) (ht : 0 < t)
    (hregular : compounding.usesFrequency = true → ∃ f : ℝ, periods frequency = .ok f) :
    ∃ ir, implied factor dayCount compounding frequency t = .ok ir := by
  have made (r : ℝ) : ∃ ir, make r dayCount compounding frequency = .ok ir := by
    cases huses : compounding.usesFrequency with
    | false => exact ⟨_, by rw [make, huses]; rfl⟩
    | true =>
      obtain ⟨f, hf⟩ := hregular huses
      exact ⟨_, by rw [make, huses, hf]; rfl⟩
  obtain ⟨rate, hrate⟩ : ∃ rate, rateFor factor compounding frequency t = .ok rate := by
    cases compounding with
    | simple | continuous => exact ⟨_, rfl⟩
    | compounded | simpleThenCompounded | compoundedThenSimple =>
      obtain ⟨f, hf⟩ := hregular rfl
      exact ⟨_, by rw [rateFor, hf]; rfl⟩
  rw [← lit_zero] at hfactor ht
  rw [implied, Outcome.require_ok.mpr (decide_eq_true hfactor), Outcome.require_ok.mpr (decide_eq_true ht),
    Outcome.require_ok.mpr (decide_eq_true ht.le), hrate]
  show ∃ ir, (if (factor == 1.0) = true then make 0.0 _ _ _ else make rate _ _ _) = .ok ir
  split
  · exact made 0.0
  · exact made rate

end RateCurves.InterestRate
