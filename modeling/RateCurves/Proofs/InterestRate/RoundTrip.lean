import Mathlib.Analysis.SpecialFunctions.Pow.Real
import RateCurves.Proofs.InterestRate.Implied

/-!
# Round trips

A growth implies a rate with that growth, but does a rate come back from its own growth? Under simple and
continuous interest a higher rate grows more. Where interest is added to interest this is so only above the
rates that leave something of the unit after one period (`Solvent`, `growth_lt`): a rate that takes away
more than the unit makes a debt of it, and an even number of periods makes a positive growth of the debt
again, which is also that of a solvent rate. So different solvent rates grow differently
(`growth_injective`), and as an implied rate is always solvent (`implied_solvent`), the solvent rates are
those that come back (`implied_undoes`).
-/

namespace RateCurves

open Scalar

/-- Interest is added to interest over the time `t`, with `f` periods a year. -/
def Compounding.Compounds (f t : ℝ) : Compounding → Prop
  | .simple | .continuous => False
  | .compounded => True
  | .simpleThenCompounded => ¬t ≤ 1.0 / f
  | .compoundedThenSimple => t ≤ 1.0 / f

namespace InterestRate

variable {rate rate' factor factor' f t : ℝ} {dayCount dayCount' : DayCount} {compounding : Compounding}
  {frequency : Frequency} {ir : InterestRate ℝ}

/-- Where interest is added to interest, one period leaves something of the unit. -/
def Solvent (ir : InterestRate ℝ) (t : ℝ) : Prop :=
  ∀ f, periods ir.frequency = .ok f → ir.compounding.Compounds f t → 0 < 1 + ir.rate / f

/-! ## The rule of a convention -/

theorem growth_regular (h : ir.growth t = .ok factor) (huses : ir.compounding.usesFrequency = true) :
    ∃ f : ℝ, periods ir.frequency = .ok f := by
  obtain ⟨rate, dayCount, compounding, frequency⟩ := ir
  cases compounding with
  | simple | continuous => cases huses
  | compounded | simpleThenCompounded | compoundedThenSimple =>
    obtain ⟨f, hf, -⟩ := Outcome.bind_ok.mp h
    exact ⟨f, hf⟩

theorem growth_compounds (hf : periods frequency = .ok f) (h : compounding.Compounds f t) :
    (mk rate dayCount compounding frequency).growth t = .ok (compoundedGrowth rate f t) := by
  cases compounding with
  | simple | continuous => exact h.elim
  | compounded => exact Outcome.bind_ok.mpr ⟨f, hf, rfl⟩
  | simpleThenCompounded => exact Outcome.bind_ok.mpr ⟨f, hf, congrArg Except.ok (if_neg h)⟩
  | compoundedThenSimple => exact Outcome.bind_ok.mpr ⟨f, hf, congrArg Except.ok (if_pos h)⟩

theorem growth_not_compounds (huses : compounding.usesFrequency = true) (hf : periods frequency = .ok f)
    (h : ¬compounding.Compounds f t) :
    (mk rate dayCount compounding frequency).growth t = .ok (simpleGrowth rate t) := by
  cases compounding with
  | simple | continuous => cases huses
  | compounded => exact absurd trivial h
  | simpleThenCompounded => exact Outcome.bind_ok.mpr ⟨f, hf, congrArg Except.ok (if_pos (not_not.mp h))⟩
  | compoundedThenSimple => exact Outcome.bind_ok.mpr ⟨f, hf, congrArg Except.ok (if_neg h)⟩

theorem rateFor_compounds (hf : periods frequency = .ok f) (h : compounding.Compounds f t) :
    rateFor factor compounding frequency t = .ok (compoundedRate factor f t) := by
  cases compounding with
  | simple | continuous => exact h.elim
  | compounded => exact Outcome.bind_ok.mpr ⟨f, hf, rfl⟩
  | simpleThenCompounded => exact Outcome.bind_ok.mpr ⟨f, hf, congrArg Except.ok (if_neg h)⟩
  | compoundedThenSimple => exact Outcome.bind_ok.mpr ⟨f, hf, congrArg Except.ok (if_pos h)⟩

/-! ## Rates in order -/

theorem simpleGrowth_lt (ht : 0 < t) (h : rate < rate') : simpleGrowth rate t < simpleGrowth rate' t :=
  add_lt_add_right (mul_lt_mul_of_pos_right h ht) _

theorem compoundedGrowth_lt (hf : 0 < f) (ht : 0 < t) (hrate : 0 < 1 + rate / f) (h : rate < rate') :
    compoundedGrowth rate f t < compoundedGrowth rate' f t := by
  rw [compoundedGrowth, compoundedGrowth, lit_one]
  have hbase : 1 + rate / f < 1 + rate' / f := add_lt_add_right (div_lt_div_of_pos_right h hf) _
  exact Real.rpow_lt_rpow hrate.le hbase (mul_pos hf ht)

theorem growth_lt (ht : 0 < t) (hgrowth : (mk rate dayCount compounding frequency).growth t = .ok factor)
    (hgrowth' : (mk rate' dayCount' compounding frequency).growth t = .ok factor')
    (solvent : (mk rate dayCount compounding frequency).Solvent t) (h : rate < rate') : factor < factor' := by
  cases huses : compounding.usesFrequency with
  | true =>
    obtain ⟨f, hf⟩ : ∃ f : ℝ, periods frequency = .ok f := growth_regular hgrowth huses
    by_cases hcompounds : compounding.Compounds f t
    · rw [growth_compounds hf hcompounds] at hgrowth hgrowth'
      cases hgrowth
      cases hgrowth'
      exact compoundedGrowth_lt (periods_pos hf) ht (solvent f hf hcompounds) h
    · rw [growth_not_compounds huses hf hcompounds] at hgrowth hgrowth'
      cases hgrowth
      cases hgrowth'
      exact simpleGrowth_lt ht h
  | false =>
    cases compounding with
    | simple =>
      cases hgrowth
      cases hgrowth'
      exact simpleGrowth_lt ht h
    | continuous =>
      cases hgrowth
      cases hgrowth'
      exact Real.exp_lt_exp.mpr (mul_lt_mul_of_pos_right h ht)
    | compounded | simpleThenCompounded | compoundedThenSimple => cases huses

/-- Solvent rates under one convention with the same growth are the same. -/
theorem growth_injective (ht : 0 < t) (hgrowth : (mk rate dayCount compounding frequency).growth t = .ok factor)
    (hgrowth' : (mk rate' dayCount' compounding frequency).growth t = .ok factor)
    (solvent : (mk rate dayCount compounding frequency).Solvent t)
    (solvent' : (mk rate' dayCount' compounding frequency).Solvent t) : rate = rate' := by
  rcases lt_trichotomy rate rate' with hlt | heq | hgt
  · exact absurd (growth_lt ht hgrowth hgrowth' solvent hlt) (lt_irrefl factor)
  · exact heq
  · exact absurd (growth_lt ht hgrowth' hgrowth solvent' hgt) (lt_irrefl factor)

/-! ## Implied rates -/

theorem solvent_of_nonneg (hrate : 0 ≤ rate) : (mk rate dayCount compounding frequency).Solvent t :=
  fun _ hf _ => add_pos_of_pos_of_nonneg one_pos (div_nonneg hrate (periods_pos hf).le)

theorem rateFor_solvent (hfactor : 0 < factor) (h : rateFor factor compounding frequency t = .ok rate) :
    (mk rate dayCount compounding frequency).Solvent t := by
  intro f hf hcompounds
  rw [rateFor_compounds hf hcompounds] at h
  obtain rfl : (factor ^ ((1.0 : ℝ) / (f * t)) - 1.0) * f = rate := Except.ok.inj h
  rw [mul_div_cancel_right₀ _ (periods_pos hf).ne', lit_one, add_sub_cancel]
  exact Real.rpow_pos_of_pos hfactor _

theorem implied_solvent (h : implied factor dayCount compounding frequency t = .ok ir) :
    (∃ rate, ir = ⟨rate, dayCount, compounding, frequency⟩) ∧ ir.Solvent t := by
  obtain ⟨⟨⟩, hpositive, h⟩ := Outcome.bind_ok.mp h
  have hfactor : 0 < factor := by
    rw [← lit_zero]
    exact of_decide_eq_true (Outcome.require_ok.mp hpositive)
  split at h
  · obtain ⟨⟨⟩, -, hmade⟩ := Outcome.bind_ok.mp h
    rw [lit_zero] at hmade
    obtain ⟨rfl, -⟩ := make_ok hmade
    exact ⟨⟨0, rfl⟩, solvent_of_nonneg le_rfl⟩
  · obtain ⟨⟨⟩, -, hmade⟩ := Outcome.bind_ok.mp h
    obtain ⟨rate, hrate, hmade⟩ := Outcome.bind_ok.mp hmade
    obtain ⟨rfl, -⟩ := make_ok hmade
    exact ⟨⟨rate, rfl⟩, rateFor_solvent hfactor hrate⟩

theorem compoundFactor_ok (h : ir.compoundFactor t = .ok factor) : 0 < factor ∧ ir.growth t = .ok factor := by
  obtain ⟨⟨⟩, -, h⟩ := Outcome.bind_ok.mp h
  obtain ⟨factor', hgrowth, h⟩ := Outcome.bind_ok.mp h
  obtain ⟨⟨⟩, hpositive, h⟩ := Outcome.bind_ok.mp h
  obtain rfl : factor' = factor := Except.ok.inj h
  refine ⟨?_, hgrowth⟩
  rw [← lit_zero]
  exact of_decide_eq_true (Outcome.require_ok.mp hpositive)

/-- The growth of a rate implies a rate under the same convention, which is the same rate if and only if that
is solvent. -/
theorem implied_back (ht : 0 < t) (h : ir.compoundFactor t = .ok factor) (dayCount : DayCount) :
    ∃ rate, implied factor dayCount ir.compounding ir.frequency t =
        .ok ⟨rate, dayCount, ir.compounding, ir.frequency⟩ ∧ (rate = ir.rate ↔ ir.Solvent t) := by
  obtain ⟨hfactor, hgrowth⟩ := compoundFactor_ok h
  obtain ⟨back, hback⟩ : ∃ back, implied factor dayCount ir.compounding ir.frequency t = .ok back :=
    implied_exists hfactor ht (growth_regular hgrowth)
  obtain ⟨⟨rate, rfl⟩, hsolvent⟩ := implied_solvent hback
  have hsame := (compoundFactor_ok (implied_compoundFactor hback).2).2
  refine ⟨rate, hback, ?_, growth_injective ht hsame hgrowth hsolvent⟩
  rintro rfl
  exact hsolvent

/-- **Implied rates undo growth.** Let a rate grow by a factor over a positive time. The factor implies a
rate under the same convention, which is the rate itself if and only if that is solvent. And where the rate is
converted to another convention and back over the same time, it comes back under the same condition. -/
theorem implied_undoes (ir : InterestRate ℝ) {t factor : ℝ} (ht : 0 < t)
    (h : ir.compoundFactor t = .ok factor) :
    (∀ dayCount, ∃ rate, implied factor dayCount ir.compounding ir.frequency t =
        .ok ⟨rate, dayCount, ir.compounding, ir.frequency⟩ ∧ (rate = ir.rate ↔ ir.Solvent t)) ∧
      ∀ compounding frequency other, ir.equivalent compounding frequency t = .ok other →
        ∃ rate, other.equivalent ir.compounding ir.frequency t = .ok { ir with rate } ∧
          (rate = ir.rate ↔ ir.Solvent t) := by
  refine ⟨implied_back ht h, fun compounding frequency other hother => ?_⟩
  obtain ⟨factor', hfactor, himplied⟩ := Outcome.bind_ok.mp hother
  obtain rfl : factor = factor' := Except.ok.inj (h.symm.trans hfactor)
  obtain ⟨hdays, hgrowth⟩ := implied_compoundFactor himplied
  obtain ⟨rate, hback, hsame⟩ := implied_back ht h ir.dayCount
  refine ⟨rate, Outcome.bind_ok.mpr ⟨factor, hgrowth, ?_⟩, hsame⟩
  rw [hdays, hback]

/-! ## Two years of annual interest -/

theorem periods_annual : periods .annual = .ok (1 : ℝ) :=
  congrArg Except.ok ((ofNat_real 1).trans Nat.cast_one)

theorem compoundFactor_twoYears (rate : ℝ) (h : 0 < (1 + rate) ^ 2) :
    (mk rate .actual365Fixed .compounded .annual).compoundFactor 2 = .ok ((1 + rate) ^ 2) := by
  have hcompounds : Compounding.compounded.Compounds 1 2 := trivial
  refine compoundFactor_eq zero_le_two h ?_
  rw [growth_compounds periods_annual hcompounds, compoundedGrowth, lit_one, div_one, one_mul]
  exact congrArg Except.ok (Real.rpow_two _)

theorem annual_solvent_iff (rate t : ℝ) :
    (mk rate .actual365Fixed .compounded .annual).Solvent t ↔ -1 < rate := by
  refine ⟨fun solvent => ?_, fun hrate f hf _ => ?_⟩
  · have := solvent 1 periods_annual trivial
    rw [div_one] at this
    linarith
  · obtain rfl : f = 1 := Except.ok.inj (hf.symm.trans periods_annual)
    rw [div_one]
    linarith

/-- Minus a half comes back: two years leave a quarter of the unit. -/
theorem implied_undoes_half :
    (0 : ℝ) < 2 ∧ (mk (-1 / 2) .actual365Fixed .compounded .annual).compoundFactor (2 : ℝ) = .ok (1 / 4) ∧
      (mk (-1 / 2 : ℝ) .actual365Fixed .compounded .annual).Solvent 2 ∧
      (∀ dayCount, implied (1 / 4 : ℝ) dayCount .compounded .annual 2 =
        .ok ⟨-1 / 2, dayCount, .compounded, .annual⟩) ∧
      ∀ compounding frequency other,
        (mk (-1 / 2 : ℝ) .actual365Fixed .compounded .annual).equivalent compounding frequency 2 = .ok other →
          other.equivalent .compounded .annual 2 = .ok ⟨-1 / 2, .actual365Fixed, .compounded, .annual⟩ := by
  have hfactor : (mk (-1 / 2) .actual365Fixed .compounded .annual).compoundFactor (2 : ℝ) = .ok (1 / 4) := by
    rw [compoundFactor_twoYears (-1 / 2) (by norm_num)]
    norm_num
  have hsolvent := (annual_solvent_iff (-1 / 2) 2).mpr (by norm_num)
  obtain ⟨implied, converted⟩ :=
    implied_undoes (mk (-1 / 2) .actual365Fixed .compounded .annual) two_pos hfactor
  refine ⟨two_pos, hfactor, hsolvent, fun dayCount => ?_, fun compounding frequency other hother => ?_⟩
  · obtain ⟨rate, hback, hsame⟩ := implied dayCount
    obtain rfl : rate = -1 / 2 := hsame.mpr hsolvent
    exact hback
  · obtain ⟨rate, hback, hsame⟩ := converted compounding frequency other hother
    obtain rfl : rate = -1 / 2 := hsame.mpr hsolvent
    exact hback

/-- Minus three does not: the unit becomes a debt of two after one year and four units after another, which is
the growth at one. -/
theorem implied_other_rate :
    (mk (-3) .actual365Fixed .compounded .annual).compoundFactor (2 : ℝ) = .ok 4 ∧
      implied (4 : ℝ) .actual365Fixed .compounded .annual 2 = .ok ⟨1, .actual365Fixed, .compounded, .annual⟩ ∧
      (1 : ℝ) ≠ -3 := by
  have hfactor (rate : ℝ) (h : (1 + rate) ^ 2 = 4) :
      (mk rate .actual365Fixed .compounded .annual).compoundFactor 2 = .ok 4 := by
    rw [compoundFactor_twoYears rate (by rw [h]; norm_num), h]
  obtain ⟨rate, hback, hsame⟩ := implied_back two_pos (hfactor 1 (by norm_num)) .actual365Fixed
  obtain rfl : rate = 1 := hsame.mpr ((annual_solvent_iff 1 2).mpr (by norm_num))
  exact ⟨hfactor (-3) (by norm_num), hback, by norm_num⟩

end InterestRate

end RateCurves
