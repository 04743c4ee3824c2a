import Mathlib
import RateCurves.Curve.Flat
import RateCurves.Proofs.Calendar.Days
import RateCurves.Proofs.Curve.Coincident
import RateCurves.Proofs.Scalar.Partial

/-!
# Flat curves

A flat curve reads a rate and turns its growth over one year into a continuous rate (`FlatCurve.Quoted`). All its
answers are made from this one number: discount factors are its exponentials, and every zero rate and forward, also
those that are taken from discount factors alone, is the number itself. The curve does not ask the rate for its
growth over any other time. That its discount factors are those of the rate is clear after one year; at all times it
is so if the growth of the rate is an exponential of the time (`InterestRate.Exponential`), as it is under continuous
and under compounded interest.

Compounded interest takes a power of the growth over one period, and a rate below minus the frequency makes a debt of
the unit, whose powers exist for whole numbers of periods only. So this is proved in exact arithmetic in which a
result may not exist.
-/

namespace RateCurves

open Scalar PartialReal

/-! ## Growth -/

namespace InterestRate

variable {ir : InterestRate PartialReal} {frequency : Frequency} {p t : PartialReal} {u x y : ℝ}

theorem compoundFactor_real (h : ir.compoundFactor t = .ok p) :
    ∃ x, p = real x ∧ 0 < x ∧ ir.growth t = .ok (real x) := by
  obtain ⟨⟨⟩, -, h⟩ := Outcome.bind_ok.mp h
  obtain ⟨p', hgrowth, h⟩ := Outcome.bind_ok.mp h
  obtain ⟨⟨⟩, hpositive, h⟩ := Outcome.bind_ok.mp h
  obtain rfl : p' = p := Except.ok.inj h
  rw [real_lit_zero] at hpositive
  obtain ⟨x, rfl, hx⟩ := exists_of_lt (of_decide_eq_true (Outcome.require_ok.mp hpositive))
  exact ⟨x, rfl, hx, hgrowth⟩

theorem discountFactor_real (hx : 0 < x) (h : ir.compoundFactor t = .ok (real x)) :
    ir.discountFactor t = .ok (real (1 / x)) := by
  rw [discountFactor, h, ← real_div hx.ne', ← real_lit_one]
  rfl

theorem compoundFactor_of_growth (hu : 0 ≤ u) (hx : 0 < x) (h : ir.growth (real u) = .ok (real x)) :
    ir.compoundFactor (real u) = .ok (real x) := by
  have htime : (0.0 : PartialReal) ≤ real u := by
    rw [real_lit_zero]
    exact hu
  have hpositive : (0.0 : PartialReal) < real x := by
    rw [real_lit_zero]
    exact hx
  exact Outcome.bind_ok.mpr ⟨(), Outcome.require_ok.mpr (decide_eq_true htime), Outcome.bind_ok.mpr
    ⟨_, h, Outcome.bind_ok.mpr ⟨(), Outcome.require_ok.mpr (decide_eq_true hpositive), rfl⟩⟩⟩

theorem periods_real (h : periods frequency = .ok p) : ∃ n : ℝ, p = real n ∧ 0 < n := by
  unfold periods at h
  cases hperiods : frequency.perYear? with
  | none =>
    rw [hperiods] at h
    cases h
  | some n =>
    rw [hperiods] at h
    refine ⟨n, (Except.ok.inj h).symm.trans (real_ofNat n), ?_⟩
    cases frequency <;> cases hperiods <;> norm_num

/-- Compounded growth is the power of the growth over one period, where that exists. -/
theorem compoundedGrowth_eq_real {n r : ℝ} (hn : 0 < n) :
    compoundedGrowth (real r) (real n) (real u) = real x ↔
      HasPower (1 + r / n) (n * u) ∧ (1 + r / n) ^ (n * u) = x := by
  rw [compoundedGrowth, real_div hn.ne', real_lit_one, real_add, real_mul]
  exact pow_eq_real

/-- The positive growths of a rate over times are powers of its growth over one year. -/
def Exponential (ir : InterestRate PartialReal) : Prop :=
  ∀ x y t : ℝ, 0 < x → 0 < y → ir.growth (real 1) = .ok (real x) → ir.growth (real t) = .ok (real y) →
    y = Real.exp (Real.log x * t)

theorem exponential_continuous (h : ir.compounding = .continuous) : ir.Exponential := by
  obtain ⟨rate, dayCount, compounding, frequency⟩ := ir
  obtain rfl : compounding = .continuous := h
  intro x y t hx hy hyear hgrowth
  cases rate with
  | undefined => cases hyear
  | real r =>
    cases hyear
    cases hgrowth
    rw [Real.log_exp, mul_one]

theorem exponential_compounded (h : ir.compounding = .compounded) : ir.Exponential := by
  obtain ⟨rate, dayCount, compounding, frequency⟩ := ir
  obtain rfl : compounding = .compounded := h
  intro x y t hx hy hyear hgrowth
  obtain ⟨p, hp, hyear⟩ := Outcome.bind_ok.mp hyear
  obtain ⟨p', hp', hgrowth⟩ := Outcome.bind_ok.mp hgrowth
  obtain rfl : p = p' := Except.ok.inj (hp.symm.trans hp')
  obtain ⟨n, rfl, hn⟩ := periods_real hp
  cases rate with
  | undefined => cases hyear
  | real r =>
    obtain ⟨hyears, rfl⟩ := (compoundedGrowth_eq_real hn).mp (Except.ok.inj hyear)
    obtain ⟨htimes, rfl⟩ := (compoundedGrowth_eq_real hn).mp (Except.ok.inj hgrowth)
    have hb : 1 + r / n ≠ 0 := by
      intro hzero
      rw [hzero, mul_one, Real.zero_rpow hn.ne'] at hx
      exact lt_irrefl 0 hx
    rw [htimes.eq_exp hb hy, hyears.eq_exp hb hx, Real.log_exp]
    ring_nf

theorem implied_continuous (r : ℝ) (hu : 0 < u) (dayCount : DayCount) (frequency : Frequency) :
    implied (real (Real.exp (r * u))) dayCount .continuous frequency (real u) =
      .ok ⟨real r, dayCount, .continuous, frequency⟩ := by
  have hpositive : (0.0 : PartialReal) < real (Real.exp (r * u)) := by
    rw [real_lit_zero]
    exact Real.exp_pos _
  have htime : (0.0 : PartialReal) < real u := by
    rw [real_lit_zero]
    exact hu
  have hnonneg : (0.0 : PartialReal) ≤ real u := OrderedScalar.le_of_lt htime
  rw [implied, Outcome.require_ok.mpr (decide_eq_true hpositive), real_lit_one, real_beq]
  by_cases hunit : Real.exp (r * u) = 1
  · have hrate : r = 0 := by simpa [hu.ne'] using hunit
    rw [Outcome.require_ok.mpr (decide_eq_true hnonneg), real_lit_zero, decide_eq_true hunit, hrate]
    rfl
  · rw [Outcome.require_ok.mpr (decide_eq_true htime), decide_eq_false hunit]
    show Except.ok (mk (ln (real _) / real u) dayCount _ _) = _
    rw [real_ln (Real.exp_pos _), Real.log_exp, real_div hu.ne', mul_div_cancel_right₀ _ hu.ne']

end InterestRate

/-! ## The range of times -/

namespace CurveView

variable {c : CurveView PartialReal} {s t last : ℝ} {extrapolate : Bool}

theorem past_mono (hlast : 0 ≤ last) (hst : s ≤ t) (h : last < s ∧ closeEnough s last = false) :
    last < t ∧ closeEnough t last = false := by
  rcases hlast.eq_or_lt with rfl | hpositive
  · have hclose {x : ℝ} (hx : 0 < x) :
        closeEnough x 0 = false ↔ tolerance defaultUnits * tolerance defaultUnits ≤ x := by
      unfold closeEnough closeEnoughWithin
      simp [beq_false_of_ne hx.ne', abs_real, abs_of_pos hx]
    have ht : 0 < t := h.1.trans_le hst
    exact ⟨ht, (hclose ht).mpr (((hclose h.1).mp h.2).trans hst)⟩
  · rw [past_iff hpositive] at h ⊢
    nlinarith [tolerance_bounds.2]

theorem checkTime_earlier (hlast : c.lastTime = .ok (real last)) (hnonneg : 0 ≤ last) (hs : 0 ≤ s) (hst : s ≤ t)
    (h : c.checkTime (real t) extrapolate = .ok ()) : c.checkTime (real s) extrapolate = .ok () := by
  have hneg : ¬real s < (0.0 : PartialReal) := by
    rw [real_lit_zero, real_lt]
    exact not_lt.mpr hs
  cases hallowed : (extrapolate || c.extrapolates) with
  | true => exact checkTime_passes hlast hneg (.inl hallowed)
  | false =>
    obtain ⟨rfl, hclosed⟩ := Bool.or_eq_false_iff.mp hallowed
    rcases checkTime_closed hclosed hlast (real s) with ⟨-, hcheck⟩ | ⟨houtside, -⟩
    · exact hcheck
    · rcases checkTime_closed hclosed hlast (real t) with ⟨hinside, -⟩ | ⟨-, hrefused⟩
      · rw [outside_iff hlast, or_iff_right hneg, real_lt, real_closeEnough] at houtside
        refine absurd ((outside_iff hlast _).mpr (.inr ?_)) hinside
        rw [real_lt, real_closeEnough]
        exact past_mono hnonneg hst houtside
      · exact absurd hrefused (Outcome.not_outOfRange_ok h)

end CurveView

/-! ## Flat curves -/

namespace DayCount

theorem yearFraction_partial (dc : DayCount) (a b : Date) :
    (dc.yearFraction a b : PartialReal) = real (dc.yearFraction a b) := by
  have hlength : (dc.yearLength : ℝ) ≠ 0 := by exact_mod_cast dc.yearLength_pos.ne'
  exact real_div hlength

end DayCount

namespace FlatCurve

open CurveView (discount_eq zeroRate_eq forwardRate_eq checkTime_earlier)

variable {κ : Type} {c : FlatCurve κ} {read : κ → Option PartialReal} {extrapolates extrapolate : Bool}
  {ir : InterestRate PartialReal} {x s t : ℝ}

/-- The curve reads a rate, and a unit grows to `x` over one year under it. -/
structure Quoted (c : FlatCurve κ) (read : κ → Option PartialReal) (ir : InterestRate PartialReal) (x : ℝ) :
    Prop where
  rate : c.rate read = .ok ir
  pos : 0 < x
  factor : ir.compoundFactor (real 1) = .ok (real x)

theorem exists_quoted {p q : PartialReal} (h : (c.view read extrapolates).discount p extrapolate = .ok q) :
    ∃ ir x, c.Quoted read ir x := by
  obtain ⟨⟨⟩, -, h⟩ := Outcome.bind_ok.mp h
  obtain ⟨r, hr, -⟩ := Outcome.bind_ok.mp h
  obtain ⟨ir, hrate, hr⟩ := Outcome.bind_ok.mp hr
  obtain ⟨factor, hfactor, -⟩ := Outcome.bind_ok.mp hr
  obtain ⟨x, rfl, hx, -⟩ := InterestRate.compoundFactor_real hfactor
  exact ⟨ir, x, hrate, hx, by rw [← real_lit_one, hfactor]⟩

theorem rate_compounding (h : c.rate read = .ok ir) : ir.compounding = c.compounding := by
  obtain ⟨value, -, hmade⟩ := Outcome.bind_ok.mp h
  unfold InterestRate.make at hmade
  split at hmade
  · obtain ⟨f, -, hir⟩ := Outcome.bind_ok.mp hmade
    cases hir
    rfl
  · cases hmade
    rfl

/-- The mean fall of the logarithm of exponential discount factors is the same over all times. -/
theorem mean_fall (r : ℝ) (hst : s < t) :
    (ln (real (Real.exp (-r * s))) - ln (real (Real.exp (-r * t)))) / real (t - s) = real r := by
  have hlength : t - s ≠ 0 := (sub_pos.mpr hst).ne'
  rw [real_ln (Real.exp_pos _), real_ln (Real.exp_pos _), Real.log_exp, Real.log_exp, real_sub, real_div hlength]
  congr 1
  rw [div_eq_iff hlength]
  ring

theorem around_partial (t : ℝ) :
    CurveView.around (real t) = (real (CurveView.around t).1, real (CurveView.around t).2) := by
  have hhalf : (CurveView.instant : PartialReal) / real 2 = real (CurveView.instant / 2) := real_div two_ne_zero
  simp only [CurveView.around, real_lit_two, real_lit_zero, hhalf, real_sub, real_max, max_real, lit_two, lit_zero]
  rfl

namespace Quoted

variable (h : c.Quoted read ir x)
include h

theorem continuousRate : c.continuousRate read = .ok (real (Real.log x)) := by
  rw [FlatCurve.continuousRate, h.rate, ← real_ln h.pos]
  show (ir.compoundFactor 1.0 >>= fun factor => pure (ln factor)) = _
  rw [real_lit_one, h.factor]
  rfl

/-! The functions of time. -/

theorem discountAt (t : ℝ) :
    (c.view read extrapolates).discountAt (real t) = .ok (real (Real.exp (-Real.log x * t))) :=
  Outcome.bind_ok.mpr ⟨_, h.continuousRate, rfl⟩

theorem forwardFromDiscounts (t : ℝ) :
    CurveView.forwardFromDiscounts (c.view read extrapolates).discountAt (real t) = .ok (real (Real.log x)) := by
  have hinstant : (0 : ℝ) < CurveView.instant := by norm_num [CurveView.instant]
  have hlater : (CurveView.around t).1 < (CurveView.around t).2 := lt_add_of_pos_right _ hinstant
  have hlength : (CurveView.instant : PartialReal) = real ((CurveView.around t).2 - (CurveView.around t).1) :=
    congrArg real (add_sub_cancel_left _ _).symm
  unfold CurveView.forwardFromDiscounts
  simp only [around_partial, h.discountAt]
  show Except.ok ((ln _ - ln _) / _) = _
  rw [hlength, mean_fall _ hlater]

theorem zeroFromDiscounts (t : ℝ) :
    CurveView.zeroFromDiscounts (c.view read extrapolates).discountAt (real t) = .ok (real (Real.log x)) := by
  unfold CurveView.zeroFromDiscounts
  rw [real_lit_zero, real_beq]
  by_cases hzero : t = 0
  · rw [if_pos (decide_eq_true hzero), h.forwardFromDiscounts]
  · rw [if_neg (by simpa using hzero), h.discountAt]
    show Except.ok (-ln (real _) / real t) = _
    rw [real_ln (Real.exp_pos _), Real.log_exp, real_neg, real_div hzero]
    congr 2
    rw [div_eq_iff hzero]
    ring

/-! The answers within the range of the curve. -/

section range

variable (ht : (c.view read extrapolates).checkTime (real t) extrapolate = .ok ())
include ht

theorem discount : (c.view read extrapolates).discount (real t) extrapolate =
    .ok (real (Real.exp (-Real.log x * t))) := by
  rw [discount_eq ht, h.discountAt]

theorem zeroRate : (c.view read extrapolates).zeroRate (real t) extrapolate = .ok (real (Real.log x)) := by
  rw [zeroRate_eq ht]
  exact h.continuousRate

theorem forwardRate (hst : s ≤ t) (hs : (c.view read extrapolates).checkTime (real s) extrapolate = .ok ()) :
    (c.view read extrapolates).forwardRate (real s) (real t) extrapolate = .ok (real (Real.log x)) := by
  rcases hst.eq_or_lt with rfl | hlt
  · rw [forwardRate_eq (real_le.mpr le_rfl) (by simp) ht]
    exact h.continuousRate
  · rw [CurveView.forwardRate, Outcome.require_ok.mpr (decide_eq_true (real_le.mpr hst)), hs, ht, real_beq,
      decide_eq_false hlt.ne, h.discountAt, h.discountAt]
    exact congrArg Except.ok (mean_fall _ hlt)

end range

theorem zeroRateUnder (ht : 0 ≤ t) (hcheck : (c.view read extrapolates).checkTime (real t) false = .ok ())
    (frequency : Frequency) : (c.view read extrapolates).zeroRateUnder (real t) .continuous frequency =
      .ok ⟨real (Real.log x), c.dayCount, .continuous, frequency⟩ := by
  obtain ⟨u, hu, htime⟩ : ∃ u : ℝ, 0 < u ∧
      (if (real t == (0.0 : PartialReal)) = true then CurveView.instant else real t) = real u := by
    rw [real_lit_zero, real_beq]
    rcases ht.eq_or_lt with rfl | hpos
    · exact ⟨CurveView.instant, by norm_num [CurveView.instant], if_pos (decide_eq_true rfl)⟩
    · exact ⟨t, hpos, if_neg (by simpa using hpos.ne')⟩
  have hfactor : (1.0 : PartialReal) / real (Real.exp (-Real.log x * u)) = real (Real.exp (Real.log x * u)) := by
    rw [real_lit_one, real_div (Real.exp_pos _).ne', one_div, ← Real.exp_neg, neg_mul, neg_neg]
  unfold CurveView.zeroRateUnder
  rw [hcheck]
  simp only [htime, h.discountAt]
  show InterestRate.implied (_ / real _) _ _ _ _ = _
  rw [hfactor]
  exact InterestRate.implied_continuous _ hu _ _

theorem forwardRateUnder (hst : s < t) (hs : (c.view read extrapolates).checkTime (real s) false = .ok ())
    (ht : (c.view read extrapolates).checkTime (real t) false = .ok ()) (frequency : Frequency) :
    (c.view read extrapolates).forwardRateUnder (real s) (real t) .continuous frequency =
      .ok ⟨real (Real.log x), c.dayCount, .continuous, frequency⟩ := by
  have hdistinct : ¬(real s == real t) = true := by simpa using hst.ne
  have hgrowth : real (Real.exp (-Real.log x * s)) / real (Real.exp (-Real.log x * t)) =
      real (Real.exp (Real.log x * (t - s))) := by
    rw [real_div (Real.exp_pos _).ne', ← Real.exp_sub]
    ring_nf
  unfold CurveView.forwardRateUnder
  rw [Outcome.require_ok.mpr (decide_eq_true (real_le.mpr hst.le))]
  simp only [if_neg hdistinct, hs, ht, h.discountAt]
  show InterestRate.implied (real _ / real _) _ _ _ _ = _
  rw [hgrowth, real_sub]
  exact InterestRate.implied_continuous _ (sub_pos.mpr hst) _ _

theorem discountFactor_one : ir.discountFactor (real 1) = .ok (real (Real.exp (-Real.log x * 1))) := by
  rw [InterestRate.discountFactor_real h.pos h.factor, mul_one, Real.exp_neg, Real.exp_log h.pos, one_div]

/-- If the growth of the rate is exponential, the curve discounts as the rate does at all times. -/
theorem discountFactor {d : PartialReal} (hexp : ir.Exponential) (hd : ir.discountFactor (real t) = .ok d) :
    d = real (Real.exp (-Real.log x * t)) := by
  obtain ⟨factor, hfactor, -⟩ := Outcome.bind_ok.mp hd
  obtain ⟨y, rfl, hy, hgrowth⟩ := InterestRate.compoundFactor_real hfactor
  obtain ⟨x', hx', -, hyear⟩ := InterestRate.compoundFactor_real h.factor
  cases hx'
  obtain rfl := hexp x y t h.pos hy hyear hgrowth
  rw [InterestRate.discountFactor_real hy hfactor, one_div, ← Real.exp_neg] at hd
  rw [← Except.ok.inj hd, neg_mul]

end Quoted

theorem view_lastTime (c : FlatCurve κ) (read : κ → Option PartialReal) (extrapolates : Bool) :
    (c.view read extrapolates).lastTime = .ok (real (c.dayCount.yearFraction c.reference .last)) := by
  rw [CurveView.lastTime, CurveView.timeOf_eq rfl]
  exact congrArg Except.ok (c.dayCount.yearFraction_partial _ _)

theorem view_checkTime_earlier (hs : 0 ≤ s) (hst : s ≤ t)
    (ht : (c.view read extrapolates).checkTime (real t) extrapolate = .ok ()) :
    (c.view read extrapolates).checkTime (real s) extrapolate = .ok () :=
  checkTime_earlier (view_lastTime c read extrapolates) (c.dayCount.yearFraction_nonneg c.reference.le_last) hs hst ht

theorem view_checkTime (c : FlatCurve κ) (read : κ → Option PartialReal) (ht : 0 ≤ t)
    (hend : (extrapolate || extrapolates) = true ∨ t ≤ c.dayCount.yearFraction c.reference .last) :
    (c.view read extrapolates).checkTime (real t) extrapolate = .ok () := by
  refine CurveView.checkTime_passes (view_lastTime c read extrapolates) ?_ (hend.imp_right ?_)
  · rw [real_lit_zero, real_lt]
    exact not_lt.mpr ht
  · rw [real_lt]
    exact not_lt.mpr

/-- **A flat curve has one rate.** Let the curve answer a query for a discount factor, at any time. Then it reads a
rate, and there is a number `r` from which all its answers are made at the times that are not refused.

Discount factors of consecutive times multiply. They are exponentials of `-r * t`, and zero rates and forwards, over
an interval and instantaneous, are `r`; so they are as rates under continuous interest, and if they are taken from
the discount factors alone. After one year the discount factor is that of the rate, under every convention; under
continuous and under compounded interest it is that of the rate whenever the rate has one. What is refused is a time
past the end of the calendar, unless the curve extrapolates. -/
theorem view_exponential (c : FlatCurve κ) (read : κ → Option PartialReal) (extrapolates : Bool)
    {p q : PartialReal} (h : (c.view read extrapolates).discount p extrapolate = .ok q) :
    let v := c.view read extrapolates
    ∃ (r : ℝ) (ir : InterestRate PartialReal), c.rate read = .ok ir ∧
      (∀ s t extrapolate, 0 ≤ s → 0 ≤ t → v.checkTime (real (s + t)) extrapolate = .ok () →
        ∃ d d', v.discount (real s) extrapolate = .ok d ∧ v.discount (real t) extrapolate = .ok d' ∧
          v.discount (real (s + t)) extrapolate = .ok (d * d')) ∧
      (∀ t extrapolate, v.checkTime (real t) extrapolate = .ok () →
        v.discount (real t) extrapolate = .ok (real (Real.exp (-r * t))) ∧
        v.zeroRate (real t) extrapolate = .ok (real r) ∧
        ∀ s, 0 ≤ s → s ≤ t → v.forwardRate (real s) (real t) extrapolate = .ok (real r)) ∧
      (∀ t frequency, 0 ≤ t → v.checkTime (real t) false = .ok () →
        v.zeroRateUnder (real t) .continuous frequency = .ok ⟨real r, c.dayCount, .continuous, frequency⟩ ∧
        ∀ s, 0 ≤ s → s < t → v.forwardRateUnder (real s) (real t) .continuous frequency =
          .ok ⟨real r, c.dayCount, .continuous, frequency⟩) ∧
      (∀ t, (v.forwardAt (real t) = .ok (real r) ∧
          CurveView.forwardFromDiscounts v.discountAt (real t) = .ok (real r)) ∧
        v.zeroAt (real t) = .ok (real r) ∧
          CurveView.zeroFromDiscounts v.discountAt (real t) = .ok (real r)) ∧
      (∀ extrapolate, v.checkTime (real 1) extrapolate = .ok () →
        ∃ d, v.discount (real 1) extrapolate = .ok d ∧ ir.discountFactor (real 1) = .ok d) ∧
      (c.compounding = .continuous ∨ c.compounding = .compounded → ∀ t d, ir.discountFactor (real t) = .ok d →
        ∀ extrapolate, v.checkTime (real t) extrapolate = .ok () → v.discount (real t) extrapolate = .ok d) ∧
      (∀ t extrapolate, 0 ≤ t →
        (extrapolate || extrapolates) = true ∨ t ≤ c.dayCount.yearFraction c.reference .last →
        v.checkTime (real t) extrapolate = .ok ()) := by
  obtain ⟨ir, x, hquoted⟩ := exists_quoted h
  refine ⟨Real.log x, ir, hquoted.rate, ?_, ?_, ?_, ?_, ?_, ?_, ?_⟩
  · intro s t extrapolate hs ht hcheck
    refine ⟨_, _, hquoted.discount (view_checkTime_earlier hs (by linarith) hcheck),
      hquoted.discount (view_checkTime_earlier ht (by linarith) hcheck), ?_⟩
    rw [hquoted.discount hcheck, real_mul, ← Real.exp_add, mul_add]
  · intro t extrapolate hcheck
    refine ⟨hquoted.discount hcheck, hquoted.zeroRate hcheck, fun s hs hst => ?_⟩
    exact hquoted.forwardRate hcheck hst (view_checkTime_earlier hs hst hcheck)
  · intro t frequency ht hcheck
    refine ⟨hquoted.zeroRateUnder ht hcheck frequency, fun s hs hst => ?_⟩
    exact hquoted.forwardRateUnder hst (view_checkTime_earlier hs hst.le hcheck) hcheck frequency
  · intro t
    exact ⟨⟨hquoted.continuousRate, hquoted.forwardFromDiscounts t⟩, hquoted.continuousRate,
      hquoted.zeroFromDiscounts t⟩
  · intro extrapolate hcheck
    exact ⟨_, hquoted.discount hcheck, hquoted.discountFactor_one⟩
  · intro hcompounding t d hd extrapolate hcheck
    rw [← rate_compounding hquoted.rate] at hcompounding
    have hexp : ir.Exponential := by
      rcases hcompounding with hcontinuous | hcompounded
      · exact InterestRate.exponential_continuous hcontinuous
      · exact InterestRate.exponential_compounded hcompounded
    rw [hquoted.discount hcheck, hquoted.discountFactor hexp hd]
  · intro t extrapolate ht hend
    exact view_checkTime c read ht hend

/-! A rate of minus six with interest added twice a year: one period turns a unit into a debt of two. -/

theorem growth_debt (dayCount : DayCount) (years : ℕ) :
    (InterestRate.mk (real (-6)) dayCount .compounded .semiannual).growth (real years) = .ok (real (4 ^ years)) := by
  have hperiods : (2 : ℝ) * years = (2 * years : ℕ) := by push_cast; rfl
  refine Outcome.bind_ok.mpr ⟨real 2, congrArg Except.ok (real_ofNat 2), congrArg Except.ok ?_⟩
  rw [InterestRate.compoundedGrowth_eq_real two_pos, hperiods, Real.rpow_natCast, pow_mul]
  norm_num [HasPower]
  exact ⟨(2 * years : ℕ), by push_cast; rfl⟩

/-- Half a period has no growth: there is no root of a debt. -/
theorem growth_debt_quarter (dayCount : DayCount) :
    (InterestRate.mk (real (-6)) dayCount .compounded .semiannual).growth (real (1 / 4)) = .ok undefined := by
  have hpower : ¬HasPower (1 + -6 / 2) (2 * (1 / 4)) := by
    rintro (hpositive | ⟨hzero, -⟩ | ⟨-, n, hn⟩)
    · norm_num at hpositive
    · norm_num at hzero
    · have hwhole : ((2 * n : ℤ) : ℝ) = (1 : ℤ) := by
        rw [Int.cast_mul, ← hn]
        norm_num
      have := Int.cast_injective hwhole
      omega
  refine Outcome.bind_ok.mpr ⟨real 2, congrArg Except.ok (real_ofNat 2), congrArg Except.ok ?_⟩
  rw [InterestRate.compoundedGrowth, real_div two_ne_zero, real_lit_one, real_add, real_mul]
  exact if_neg hpower

/-- The unit is there again after each year, multiplied by four, and the curve discounts over two years as the rate
does, although the rate has no growth over the first quarter of a year. -/
theorem view_exponential_debt :
    let c : FlatCurve Unit := ⟨.first, .of (), .actual365Fixed, .compounded, .semiannual⟩
    let v : CurveView PartialReal := c.view (fun _ => some (real (-6))) true
    let ir : InterestRate PartialReal := ⟨real (-6), .actual365Fixed, .compounded, .semiannual⟩
    ir.discountFactor (real 2) = .ok (real (1 / 16)) ∧ v.discount (real 2) false = .ok (real (1 / 16)) ∧
      ir.growth (real (1 / 4)) = .ok undefined := by
  intro c v ir
  have hgrowth := growth_debt .actual365Fixed
  have hquoted : c.Quoted (fun _ => some (real (-6))) ir 4 := by
    refine ⟨rfl, by norm_num, InterestRate.compoundFactor_of_growth zero_le_one (by norm_num) ?_⟩
    simpa using hgrowth 1
  have hcheck (t : ℝ) (ht : 0 ≤ t) : v.checkTime (real t) false = .ok () := view_checkTime c _ ht (.inl rfl)
  obtain ⟨r, ir', hrate, -, -, -, -, -, discounts, -⟩ :=
    view_exponential c (fun _ => some (real (-6))) true (hquoted.discount (hcheck 0 le_rfl))
  obtain rfl : ir = ir' := Except.ok.inj (hquoted.rate.symm.trans hrate)
  have htwo : ir.discountFactor (real 2) = .ok (real (1 / 16)) := by
    refine InterestRate.discountFactor_real (by norm_num)
      (InterestRate.compoundFactor_of_growth zero_le_two (by norm_num) ?_)
    have hyears := hgrowth 2
    norm_num at hyears
    exact hyears
  exact ⟨htwo, discounts (.inr rfl) 2 _ htwo false (hcheck 2 zero_le_two), growth_debt_quarter _⟩

end FlatCurve

end RateCurves
