import Mathlib
import RateCurves.Curve.Flat
import RateCurves.Proofs.Curve.Agree
import RateCurves.Proofs.InterestRate.Implied

/-!
# Every view of the rates gives the discount factors back

A zero rate or a forward of a curve is the rate of some growth, and that growth is a quotient of discount
factors. Since an implied rate has the growth it is implied from (`InterestRate.implied_compoundFactor`), in
exact arithmetic the discount factors come back from every rate that a curve with positive discount factors
answers with, under every convention and day count (`CurveView.rates_reproduce`).
-/

namespace RateCurves

open Scalar

namespace CurveView

variable {c : CurveView ℝ} {t start stop d r : ℝ} {extrapolate : Bool} {compounding : Compounding}
  {frequency : Frequency} {ir : InterestRate ℝ}

theorem discount_ok : c.discount t extrapolate = .ok d ↔
    c.checkTime t extrapolate = .ok () ∧ c.discountAt t = .ok d := by
  constructor
  · intro h
    obtain ⟨⟨⟩, hcheck, hd⟩ := Outcome.bind_ok.mp h
    exact ⟨hcheck, hd⟩
  · rintro ⟨hcheck, hd⟩
    rw [discount_eq hcheck, hd]

/-! ## Times -/

theorem zeroRateUnder_discountFactor (ht : 0 < t) (h : c.zeroRateUnder t compounding frequency = .ok ir) :
    ∃ d, c.discount t false = .ok d ∧ ir.discountFactor t = .ok d := by
  obtain ⟨⟨⟩, hcheck, h⟩ := Outcome.bind_ok.mp h
  have hlater : (if t == (0.0 : ℝ) then instant else t) = t := by
    rw [lit_zero, if_neg]
    exact fun hzero => ht.ne' (eq_of_beq hzero)
  simp only [hlater] at h
  obtain ⟨d, hd, himplied⟩ := Outcome.bind_ok.mp h
  refine ⟨d, discount_ok.mpr ⟨hcheck, hd⟩, ?_⟩
  rw [InterestRate.discountFactor, (InterestRate.implied_compoundFactor himplied).2]
  show Except.ok ((1.0 : ℝ) / (1.0 / d)) = _
  rw [lit_one, one_div_one_div]

theorem forwardRate_exp (hpositive : ∀ t d, c.discount t extrapolate = .ok d → 0 < d) (hlt : start < stop)
    (h : c.forwardRate start stop extrapolate = .ok r) :
    ∃ before after, c.discount start extrapolate = .ok before ∧ c.discount stop extrapolate = .ok after ∧
      before = after * Real.exp (r * (stop - start)) := by
  obtain ⟨⟨⟩, -, h⟩ := Outcome.bind_ok.mp h
  obtain ⟨⟨⟩, hstart, h⟩ := Outcome.bind_ok.mp h
  obtain ⟨⟨⟩, hstop, h⟩ := Outcome.bind_ok.mp h
  rw [beq_false_of_ne hlt.ne] at h
  obtain ⟨before, hbefore, h⟩ := Outcome.bind_ok.mp h
  obtain ⟨after, hafter, h⟩ := Outcome.bind_ok.mp h
  have hbefore' := discount_ok.mpr ⟨hstart, hbefore⟩
  have hafter' := discount_ok.mpr ⟨hstop, hafter⟩
  refine ⟨before, after, hbefore', hafter', ?_⟩
  have hrate : r * (stop - start) = Real.log before - Real.log after := by
    cases h
    exact div_mul_cancel₀ _ (sub_pos.mpr hlt).ne'
  have hpos := hpositive _ _ hafter'
  rw [hrate, Real.exp_sub, Real.exp_log (hpositive _ _ hbefore'), Real.exp_log hpos,
    mul_div_cancel₀ _ hpos.ne']

theorem forwardRateUnder_compoundFactor (hlt : start < stop)
    (h : c.forwardRateUnder start stop compounding frequency = .ok ir) :
    ∃ before after, c.discount start false = .ok before ∧ c.discount stop false = .ok after ∧
      ir.compoundFactor (stop - start) = .ok (before / after) := by
  obtain ⟨⟨⟩, -, h⟩ := Outcome.bind_ok.mp h
  simp only [beq_false_of_ne hlt.ne, Bool.false_eq_true, if_false] at h
  obtain ⟨⟨⟩, hstart, h⟩ := Outcome.bind_ok.mp h
  obtain ⟨⟨⟩, hstop, h⟩ := Outcome.bind_ok.mp h
  obtain ⟨before, hbefore, h⟩ := Outcome.bind_ok.mp h
  obtain ⟨after, hafter, himplied⟩ := Outcome.bind_ok.mp h
  exact ⟨before, after, discount_ok.mpr ⟨hstart, hbefore⟩, discount_ok.mpr ⟨hstop, hafter⟩,
    (InterestRate.implied_compoundFactor himplied).2⟩

/-! ## Dates -/

variable {reference date early late : Date} {dayCount : DayCount}

/-- On a date other than the reference date a zero rate grows as the curve discounts, by its own day count. -/
theorem zeroRateOn_compoundFactor (hreference : c.reference = .ok reference) (hne : date ≠ reference)
    (h : c.zeroRateOn date dayCount compounding frequency = .ok ir) :
    ∃ d, c.discountOn date = .ok d ∧ ir.compoundFactorBetween reference date = .ok (1 / d) := by
  rw [zeroRateOn, hreference] at h
  simp only [Outcome.bind_ok, Except.ok.injEq, exists_eq_left', if_neg hne] at h
  obtain ⟨d, hd, himplied⟩ := h
  obtain ⟨hdays, hgrowth⟩ := InterestRate.implied_compoundFactor himplied
  refine ⟨d, hd, ?_⟩
  rw [InterestRate.compoundFactorBetween, hdays, hgrowth, lit_one]

/-- A forward between two dates grows over them as the discount factors fall, by its own day count. -/
theorem forwardRateBetween_compoundFactor (hlt : early < late)
    (h : c.forwardRateBetween early late dayCount compounding frequency = .ok ir) :
    ∃ before after, c.discountOn early = .ok before ∧ c.discountOn late = .ok after ∧
      ir.compoundFactorBetween early late = .ok (before / after) := by
  obtain ⟨⟨⟩, -, h⟩ := Outcome.bind_ok.mp h
  rw [if_neg hlt.ne] at h
  obtain ⟨before, hbefore, h⟩ := Outcome.bind_ok.mp h
  obtain ⟨after, hafter, himplied⟩ := Outcome.bind_ok.mp h
  obtain ⟨hdays, hgrowth⟩ := InterestRate.implied_compoundFactor himplied
  refine ⟨before, after, hbefore, hafter, ?_⟩
  rw [InterestRate.compoundFactorBetween, hdays, hgrowth]

/-! ## All views -/

/-- **Every view of the rates gives the discount factors back.** Whenever a curve with positive discount
factors answers with a rate, under whatever convention, frequency and day count, the discount factors at the
two ends exist and the rate leads from the one to the other. -/
theorem rates_reproduce (c : CurveView ℝ) (hpositive : ∀ t d, c.discount t false = .ok d → 0 < d) :
    (∀ t compounding frequency ir, 0 < t → c.zeroRateUnder t compounding frequency = .ok ir →
      ∃ d, c.discount t false = .ok d ∧ ir.discountFactor t = .ok d) ∧
    (∀ start stop r, start < stop → c.forwardRate start stop false = .ok r →
      ∃ before after, c.discount start false = .ok before ∧ c.discount stop false = .ok after ∧
        before = after * Real.exp (r * (stop - start))) ∧
    (∀ start stop compounding frequency ir, start < stop →
      c.forwardRateUnder start stop compounding frequency = .ok ir →
      ∃ before after, c.discount start false = .ok before ∧ c.discount stop false = .ok after ∧
        ir.compoundFactor (stop - start) = .ok (before / after)) ∧
    (∀ reference date dayCount compounding frequency ir, c.reference = .ok reference → date ≠ reference →
      c.zeroRateOn date dayCount compounding frequency = .ok ir →
      ∃ d, c.discountOn date = .ok d ∧ ir.compoundFactorBetween reference date = .ok (1 / d)) ∧
    (∀ early late dayCount compounding frequency ir, early < late →
      c.forwardRateBetween early late dayCount compounding frequency = .ok ir →
      ∃ before after, c.discountOn early = .ok before ∧ c.discountOn late = .ok after ∧
        ir.compoundFactorBetween early late = .ok (before / after)) := by
  refine ⟨?_, ?_, ?_, ?_, ?_⟩
  · intro t compounding frequency ir ht h
    exact zeroRateUnder_discountFactor ht h
  · intro start stop r hlt h
    exact forwardRate_exp hpositive hlt h
  · intro start stop compounding frequency ir hlt h
    exact forwardRateUnder_compoundFactor hlt h
  · intro reference date dayCount compounding frequency ir hreference hne h
    exact zeroRateOn_compoundFactor hreference hne h
  · intro early late dayCount compounding frequency ir hlt h
    exact forwardRateBetween_compoundFactor hlt h

end CurveView

/-! ## Flat curves -/

theorem FlatCurve.discount_pos {κ : Type} {flat : FlatCurve κ} {read : κ → Option ℝ} {extrapolates : Bool}
    {t d : ℝ} (h : (flat.view read extrapolates).discount t false = .ok d) : 0 < d := by
  obtain ⟨-, hd⟩ := CurveView.discount_ok.mp h
  obtain ⟨r, -, hd⟩ := Outcome.bind_ok.mp hd
  cases hd
  exact Real.exp_pos _

theorem FlatCurve.discountAt_continuous {κ : Type} (reference : Date) {quote : Handle κ} (dayCount : DayCount)
    {read : κ → Option ℝ} (extrapolates : Bool) {r : ℝ} (hquote : quote.target?.bind read = some r) (t : ℝ) :
    ((FlatCurve.continuous reference quote dayCount).view read extrapolates).discountAt t =
      .ok (Real.exp (-r * t)) := by
  have hgrowth : (InterestRate.mk r dayCount .continuous .noFrequency).compoundFactor 1.0 =
      .ok (Real.exp (r * 1.0)) :=
    InterestRate.compoundFactor_eq (by norm_num) (Real.exp_pos _) rfl
  have hrate : (FlatCurve.continuous reference quote dayCount).continuousRate read = .ok r := by
    refine Outcome.bind_ok.mpr ⟨⟨r, dayCount, .continuous, .noFrequency⟩, ?_, ?_⟩
    · exact Outcome.bind_ok.mpr ⟨r, by rw [FlatCurve.continuous, hquote]; rfl, rfl⟩
    · refine Outcome.bind_ok.mpr ⟨_, hgrowth, congrArg Except.ok ?_⟩
      rw [lit_one, mul_one]
      exact Real.log_exp r
  exact Outcome.bind_ok.mpr ⟨r, hrate, rfl⟩

/-- Five per cent for all times, compounded each quarter over the first two years. -/
theorem rates_reproduce_flat :
    let c : CurveView ℝ := (FlatCurve.continuous .first (.of ()) .actual360).view (fun _ => some 0.05) true
    ∃ ir, c.zeroRateUnder 2 .compounded .quarterly = .ok ir ∧
      ∃ d, c.discount 2 false = .ok d ∧ ir.discountFactor 2 = .ok d := by
  intro c
  have hcheck : c.checkTime 2 false = .ok () :=
    CurveView.checkTime_ok (CurveView.timeOf_eq rfl _) zero_le_two (.inl rfl)
  have hd : c.discountAt 2 = .ok (Real.exp (-0.05 * 2)) :=
    FlatCurve.discountAt_continuous .first .actual360 true rfl 2
  obtain ⟨ir, himplied⟩ : ∃ ir,
      InterestRate.implied (1 / Real.exp (-0.05 * 2)) c.dayCount .compounded .quarterly 2 = .ok ir :=
    InterestRate.implied_exists (one_div_pos.mpr (Real.exp_pos (-0.05 * 2))) two_pos fun _ => ⟨_, rfl⟩
  have hir : c.zeroRateUnder 2 .compounded .quarterly = .ok ir := by
    refine Outcome.bind_ok.mpr ⟨(), hcheck, ?_⟩
    rw [lit_zero, if_neg (by rw [beq_false_of_ne two_ne_zero]; exact Bool.false_ne_true)]
    refine Outcome.bind_ok.mpr ⟨_, hd, ?_⟩
    rw [lit_one, himplied]
  obtain ⟨zeros, -⟩ := CurveView.rates_reproduce c fun _ _ => FlatCurve.discount_pos
  exact ⟨ir, hir, zeros 2 .compounded .quarterly ir two_pos hir⟩

end RateCurves
