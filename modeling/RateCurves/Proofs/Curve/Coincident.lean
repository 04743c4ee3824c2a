import RateCurves.Proofs.Curve.Agree
import RateCurves.Proofs.Scalar.Double

/-!
# Coincident forwards and the range of a curve

A forward between a time and itself is taken over the instant around the time if it is asked for under a
convention, and is the instantaneous one otherwise. The range check follows the instant in the first case and
the time in the second, so the two are refused together exactly where the instant and the time lie outside
the curve together, and it is the same with a forward between a date and itself and the discount factor on
the date (`CurveView.coincident_refused_iff`). That is not so everywhere: the instant does not reach below
zero but past the end of the curve (`CurveView.outside_around_iff`). In exact arithmetic they are refused together
from time zero on, but for the last half of an instant (`CurveView.coincident_refused_exact`).
-/

namespace RateCurves

open Scalar

namespace Outcome

variable {α β γ : Type}

/-- The operation has failed because it was asked for something outside a range. -/
def OutOfRange (o : Outcome α β) : Prop := ∃ e, o = .error e ∧ e.kind = .range

theorem not_outOfRange_ok {o : Outcome α β} {v : β} (h : o = .ok v) : ¬o.OutOfRange :=
  fun ⟨_, he, _⟩ => nomatch h.symm.trans he

theorem not_outOfRange_error {o : Outcome α β} {e : Failure α} (h : o = .error e)
    (hkind : e.kind = .configuration) : ¬o.OutOfRange := by
  rintro ⟨e', he', hrange⟩
  obtain rfl := Except.error.inj (h.symm.trans he')
  exact nomatch hkind.symm.trans hrange

/-- What is outside a range in a sequence of operations is its first or a later one. -/
theorem outOfRange_bind {o : Outcome α β} {next : β → Outcome α γ} :
    (o >>= next).OutOfRange ↔ o.OutOfRange ∨ ∃ v, o = .ok v ∧ (next v).OutOfRange := by
  cases o with
  | error e =>
    constructor
    · rintro ⟨_, ⟨⟩, hkind⟩
      exact .inl ⟨e, rfl, hkind⟩
    · rintro (⟨_, ⟨⟩, hkind⟩ | ⟨_, ⟨⟩, _⟩)
      exact ⟨e, rfl, hkind⟩
  | ok v =>
    refine ⟨fun h => .inr ⟨v, rfl, h⟩, ?_⟩
    rintro (h | ⟨_, ⟨⟩, h⟩)
    · exact absurd h (not_outOfRange_ok rfl)
    · exact h

theorem outOfRange_guard {condition : Bool} {cause : Failure α} {next : Unit → Outcome α β}
    (hkind : cause.kind = .configuration) :
    (require condition cause >>= next).OutOfRange ↔ condition = true ∧ (next ()).OutOfRange := by
  cases condition with
  | false => exact ⟨fun h => absurd h (not_outOfRange_error rfl hkind), nofun⟩
  | true => exact ⟨fun h => ⟨rfl, h⟩, And.right⟩

end Outcome

variable {α : Type} [Scalar α]

/-- Growth never fails because of a range: it does not know of any. -/
theorem InterestRate.implied_not_outOfRange (factor : α) (dayCount : DayCount) (compounding : Compounding)
    (frequency : Frequency) (t : α) : ¬(implied factor dayCount compounding frequency t).OutOfRange := by
  have regular : ¬(periods frequency : Outcome α α).OutOfRange := by
    unfold periods
    cases frequency.perYear? with
    | none => exact Outcome.not_outOfRange_error rfl rfl
    | some n => exact Outcome.not_outOfRange_ok rfl
  have made (rate : α) : ¬(make rate dayCount compounding frequency).OutOfRange := by
    unfold make
    split
    · rw [Outcome.outOfRange_bind]
      rintro (h | ⟨_, -, h⟩)
      · exact regular h
      · exact Outcome.not_outOfRange_ok rfl h
    · exact Outcome.not_outOfRange_ok rfl
  have rated : ¬(rateFor factor compounding frequency t).OutOfRange := by
    cases compounding with
    | simple | continuous => exact Outcome.not_outOfRange_ok rfl
    | compounded | simpleThenCompounded | compoundedThenSimple =>
      rw [rateFor, Outcome.outOfRange_bind]
      rintro (h | ⟨_, -, h⟩)
      · exact regular h
      · exact Outcome.not_outOfRange_ok rfl h
  unfold implied
  rw [Outcome.outOfRange_guard rfl]
  rintro ⟨-, h⟩
  split at h
  · rw [Outcome.outOfRange_guard rfl] at h
    exact made _ h.2
  · rw [Outcome.outOfRange_guard rfl, Outcome.outOfRange_bind] at h
    obtain ⟨-, h | ⟨rate, -, h⟩⟩ := h
    · exact rated h
    · exact made rate h

namespace CurveView

/-- The discount factors and forwards of a curve as functions of time have no range of their own. -/
structure Unranged (c : CurveView α) : Prop where
  discountAt : ∀ t, ¬(c.discountAt t).OutOfRange
  forwardAt : ∀ t, ¬(c.forwardAt t).OutOfRange

/-- Before the reference date, or past the end of the curve and not close to it. -/
def Outside (c : CurveView α) (t : α) : Prop :=
  t < 0.0 ∨ ∃ last, c.lastTime = .ok last ∧ last < t ∧ closeEnough t last = false

variable {c : CurveView α} {last : α} {dayCount : DayCount} {compounding : Compounding} {frequency : Frequency}

theorem outside_iff (hlast : c.lastTime = .ok last) (t : α) :
    c.Outside t ↔ t < 0.0 ∨ last < t ∧ closeEnough t last = false := by
  refine or_congr_right ⟨?_, fun h => ⟨last, hlast, h⟩⟩
  rintro ⟨last', hlast', h⟩
  obtain rfl := Except.ok.inj (hlast.symm.trans hlast')
  exact h

theorem growth_not_outOfRange (hunranged : c.Unranged) (start stop time : α) :
    ¬(do
      let before ← c.discountAt start
      let after ← c.discountAt stop
      InterestRate.implied (before / after) dayCount compounding frequency time :
        Outcome α (InterestRate α)).OutOfRange := by
  rw [Outcome.outOfRange_bind]
  rintro (h | ⟨before, -, h⟩)
  · exact hunranged.discountAt start h
  rw [Outcome.outOfRange_bind] at h
  rcases h with h | ⟨after, -, h⟩
  · exact hunranged.discountAt stop h
  · exact InterestRate.implied_not_outOfRange _ _ _ _ _ h

section closed

variable (hclosed : c.extrapolates = false) (hlast : c.lastTime = .ok last)
include hclosed hlast

/-- Without extrapolation the check passes inside the curve, and outside it fails because of the range. -/
theorem checkTime_closed (t : α) :
    ¬c.Outside t ∧ c.checkTime t false = .ok () ∨ c.Outside t ∧ (c.checkTime t false).OutOfRange := by
  rw [outside_iff hlast]
  by_cases hneg : t < 0.0
  · refine .inr ⟨.inl hneg, .timeBeforeReference t, ?_, rfl⟩
    rw [checkTime, if_pos hneg]
    rfl
  by_cases hpast : last < t ∧ closeEnough t last = false
  · have hrefused : (decide (last < t) && !closeEnough t last) = true := by
      rw [decide_eq_true hpast.1, hpast.2]
      rfl
    refine .inr ⟨.inr hpast, .timePastEnd t last, ?_, rfl⟩
    rw [checkTime, if_neg hneg, hclosed, hlast]
    show (if (decide (last < t) && !closeEnough t last) = true then _ else _) = _
    rw [if_pos hrefused]
    rfl
  · have hpassed : ¬(decide (last < t) && !closeEnough t last) = true := by
      rw [Bool.and_eq_true, decide_eq_true_iff, Bool.not_eq_true']
      exact hpast
    refine .inl ⟨not_or.mpr ⟨hneg, hpast⟩, ?_⟩
    rw [checkTime, if_neg hneg, hclosed, hlast]
    show (if (decide (last < t) && !closeEnough t last) = true then _ else _) = _
    rw [if_neg hpassed]
    rfl

theorem checkTime_outOfRange {β : Type} (t : α) {next : Unit → Outcome α β} :
    (c.checkTime t false >>= next).OutOfRange ↔ c.Outside t ∨ (next ()).OutOfRange := by
  rw [Outcome.outOfRange_bind]
  rcases checkTime_closed hclosed hlast t with ⟨hinside, hcheck⟩ | ⟨houtside, hcheck⟩
  · rw [hcheck]
    constructor
    · rintro (h | ⟨_, -, h⟩)
      · exact absurd h (Outcome.not_outOfRange_ok rfl)
      · exact .inr h
    · rintro (h | h)
      · exact absurd h hinside
      · exact .inr ⟨(), rfl, h⟩
  · exact ⟨fun _ => .inl houtside, fun _ => .inl hcheck⟩

theorem discountOn_outOfRange (hunranged : c.Unranged) {date : Date} {t : α} (htime : c.timeOf date = .ok t) :
    (c.discountOn date).OutOfRange ↔ c.Outside t := by
  rw [discountOn, htime]
  show (c.checkTime t false >>= fun _ => c.discountAt t).OutOfRange ↔ _
  rw [checkTime_outOfRange hclosed hlast]
  exact or_iff_left (hunranged.discountAt t)

theorem forwardRateBetween_outOfRange (hunranged : c.Unranged) {date : Date} {t : α}
    (htime : c.timeOf date = .ok t) :
    (c.forwardRateBetween date date dayCount compounding frequency).OutOfRange ↔ c.Outside (around t).2 := by
  rw [forwardRateBetween, Outcome.outOfRange_guard rfl, and_iff_right (decide_eq_true le_rfl), if_pos rfl, htime]
  show (c.checkTime (around t).2 false >>= fun _ => _).OutOfRange ↔ _
  rw [checkTime_outOfRange hclosed hlast]
  exact or_iff_left (growth_not_outOfRange hunranged _ _ _)

variable [OrderedScalar α]

theorem forwardRate_outOfRange (hunranged : c.Unranged) (t : α) :
    (c.forwardRate t t false).OutOfRange ↔ t ≤ t ∧ c.Outside t := by
  rw [forwardRate, Outcome.outOfRange_guard rfl, decide_eq_true_iff]
  refine and_congr_right fun ht => ?_
  rw [checkTime_outOfRange hclosed hlast, checkTime_outOfRange hclosed hlast, OrderedScalar.beq_self ht]
  show c.Outside t ∨ c.Outside t ∨ (c.forwardAt t).OutOfRange ↔ _
  rw [or_iff_left (hunranged.forwardAt t), or_self]

theorem forwardRateUnder_outOfRange (hunranged : c.Unranged) (t : α) :
    (c.forwardRateUnder t t compounding frequency).OutOfRange ↔
      t ≤ t ∧ (c.Outside (around t).1 ∨ c.Outside (around t).2) := by
  rw [forwardRateUnder, Outcome.outOfRange_guard rfl, decide_eq_true_iff]
  refine and_congr_right fun ht => ?_
  simp only [OrderedScalar.beq_self ht, if_true]
  rw [checkTime_outOfRange hclosed hlast, checkTime_outOfRange hclosed hlast]
  refine or_congr_right (or_iff_left ?_)
  exact growth_not_outOfRange hunranged _ _ _

/-- **Where coincident forwards are refused.** Without extrapolation a forward between a time and itself is
refused under a convention exactly when it is without one, if the time is outside the curve exactly when the
instant around it is, and only then; and a forward between a date and itself is refused exactly when the
discount factor is, if the time of the date is outside exactly when the end of the instant is. -/
theorem coincident_refused_iff (hunranged : c.Unranged) :
    (∀ t compounding frequency,
      ((c.forwardRateUnder t t compounding frequency).OutOfRange ↔ (c.forwardRate t t false).OutOfRange) ↔
        (t ≤ t → (c.Outside (around t).1 ∨ c.Outside (around t).2 ↔ c.Outside t))) ∧
    (∀ date t dayCount compounding frequency, c.timeOf date = .ok t →
      (((c.forwardRateBetween date date dayCount compounding frequency).OutOfRange ↔
          (c.discountOn date).OutOfRange) ↔
        (c.Outside (around t).2 ↔ c.Outside t))) := by
  constructor
  · intro t compounding frequency
    rw [forwardRateUnder_outOfRange hclosed hlast hunranged, forwardRate_outOfRange hclosed hlast hunranged]
    exact and_congr_right_iff
  · intro date t dayCount compounding frequency htime
    rw [forwardRateBetween_outOfRange hclosed hlast hunranged htime,
      discountOn_outOfRange hclosed hlast hunranged htime]

end closed

/-! ## Exact arithmetic -/

section exact

variable {c : CurveView ℝ} {last s t : ℝ}

theorem tolerance_bounds : (0 : ℝ) < tolerance defaultUnits ∧ (tolerance defaultUnits : ℝ) < 1 := by
  rw [tolerance, ofNat_real, epsilon, defaultUnits]
  norm_num

theorem past_iff (hpositive : 0 < last) :
    last < t ∧ closeEnough t last = false ↔ last + tolerance defaultUnits * t < t := by
  obtain ⟨htolerance, hone⟩ := tolerance_bounds
  have hclose (hlt : last < t) : closeEnough t last = false ↔ tolerance defaultUnits * t < t - last := by
    have ht := hpositive.trans hlt
    have hproduct : (t * last == (0.0 : ℝ)) = false := by
      rw [lit_zero]
      exact beq_false_of_ne (mul_pos ht hpositive).ne'
    rw [closeEnough, closeEnoughWithin, beq_false_of_ne hlt.ne']
    simp only [hproduct, Bool.false_eq_true, if_false, Bool.or_eq_false_iff, decide_eq_false_iff_not, not_le,
      abs_real, abs_of_pos ht, abs_of_pos hpositive, abs_of_pos (sub_pos.mpr hlt)]
    exact and_iff_left_of_imp fun h => (mul_lt_mul_of_pos_left hlt htolerance).trans h
  constructor
  · rintro ⟨hlt, hfar⟩
    linarith [(hclose hlt).mp hfar]
  · intro h
    have ht : 0 < t := by nlinarith
    have hlt : last < t := by linarith [mul_pos htolerance ht]
    exact ⟨hlt, (hclose hlt).mpr (by linarith)⟩

theorem Outside.mono (hlast : c.lastTime = .ok last) (hpositive : 0 < last) (hs : 0 ≤ s) (hst : s ≤ t)
    (h : c.Outside s) : c.Outside t := by
  rw [outside_iff hlast, past_iff hpositive, lit_zero] at h ⊢
  have hpast := h.resolve_left (not_lt.mpr hs)
  right
  nlinarith [tolerance_bounds.2]

/-- On a curve longer than an instant, the instant around a time lies outside if the time is not negative and
the time half an instant later lies outside. -/
theorem outside_around (hlast : c.lastTime = .ok last) (hlong : instant ≤ last) (t : ℝ) :
    (c.Outside (around t).1 ∨ c.Outside (around t).2 ↔ c.Outside (around t).2) ∧
      (c.Outside (around t).2 ↔ 0 ≤ t ∧ c.Outside (t + instant / 2)) := by
  have hinstant : (0 : ℝ) < instant := by norm_num [instant]
  have hpositive := hinstant.trans_le hlong
  have hinside {s : ℝ} (hs : 0 ≤ s) (hle : s ≤ last) : ¬c.Outside s := by
    rw [outside_iff hlast, lit_zero, not_or]
    exact ⟨not_lt.mpr hs, fun h => not_lt.mpr hle h.1⟩
  have hstart : (around t).1 = Max.max (t - instant / 2) 0 := by
    rw [around, max_real, lit_two, lit_zero]
  have hstop : (around t).2 = (around t).1 + instant := rfl
  have hnonneg : 0 ≤ (around t).1 := hstart ▸ le_max_right _ _
  refine ⟨or_iff_right_of_imp (.mono hlast hpositive hnonneg (by linarith)), ?_⟩
  rcases le_or_gt (instant / 2) t with hlater | hsooner
  · have hend : (around t).2 = t + instant / 2 := by
      rw [hstop, hstart, max_eq_left (by linarith)]
      ring
    rw [hend]
    exact ⟨fun h => ⟨by linarith, h⟩, And.right⟩
  · have hend : (around t).2 = instant := by
      rw [hstop, hstart, max_eq_right (by linarith), zero_add]
    rw [hend]
    refine ⟨fun h => absurd h (hinside hinstant.le hlong), ?_⟩
    rintro ⟨ht, h⟩
    exact absurd h (hinside (by linarith) (by linarith))

/-- So on such a curve the instant around a time lies outside together with the time unless the time is
negative or less than half an instant before the end. -/
theorem outside_around_iff (hlast : c.lastTime = .ok last) (hlong : instant ≤ last) (t : ℝ) :
    (c.Outside (around t).1 ∨ c.Outside (around t).2 ↔ c.Outside t) ↔
      0 ≤ t ∧ (c.Outside (t + instant / 2) → c.Outside t) := by
  have hinstant : (0 : ℝ) < instant := by norm_num [instant]
  obtain ⟨hwhole, hend⟩ := outside_around hlast hlong t
  rw [hwhole, hend]
  constructor
  · intro h
    have ht : 0 ≤ t := by
      by_contra hneg
      exact hneg (h.mpr (.inl (by rw [lit_zero]; exact not_le.mp hneg))).1
    exact ⟨ht, fun houtside => h.mp ⟨ht, houtside⟩⟩
  · rintro ⟨ht, h⟩
    exact ⟨fun houtside => h houtside.2, fun houtside => ⟨ht, .mono hlast (hinstant.trans_le hlong) ht
      (by linarith) houtside⟩⟩

/-- In exact arithmetic, on a curve that is not shorter than an instant, coincident forwards are refused when they
should be unless the time is negative or less than half an instant before the end. -/
theorem coincident_refused_exact (hclosed : c.extrapolates = false) (hlast : c.lastTime = .ok last)
    (hlong : instant ≤ last) (hunranged : c.Unranged) :
    (∀ t compounding frequency,
      ((c.forwardRateUnder t t compounding frequency).OutOfRange ↔ (c.forwardRate t t false).OutOfRange) ↔
        0 ≤ t ∧ (c.Outside (t + instant / 2) → c.Outside t)) ∧
    ∀ date t dayCount compounding frequency, c.timeOf date = .ok t →
      (((c.forwardRateBetween date date dayCount compounding frequency).OutOfRange ↔
          (c.discountOn date).OutOfRange) ↔
        0 ≤ t ∧ (c.Outside (t + instant / 2) → c.Outside t)) := by
  constructor
  · intro t compounding frequency
    rw [forwardRateUnder_outOfRange hclosed hlast hunranged, forwardRate_outOfRange hclosed hlast hunranged,
      and_iff_right le_rfl, and_iff_right le_rfl]
    exact outside_around_iff hlast hlong t
  · intro date t dayCount compounding frequency htime
    rw [forwardRateBetween_outOfRange hclosed hlast hunranged htime,
      discountOn_outOfRange hclosed hlast hunranged htime, ← (outside_around hlast hlong t).1]
    exact outside_around_iff hlast hlong t

end exact

end CurveView

/-! ## A curve over one year -/

theorem NodeCurve.view_unranged (c : NodeCurve α) (extrapolates : Bool) : (c.view extrapolates).Unranged where
  discountAt _ := Outcome.not_outOfRange_ok rfl
  forwardAt _ := Outcome.not_outOfRange_ok rfl

/-- Linear discount factors from the fifth of March 2023 to 95 per cent 365 days later. -/
def oneYear : Outcome Float (NodeCurve Float) :=
  NodeCurve.ofValues .discount .actual365Fixed .linear
    [OneYear.start, OneYear.stop] [1.0, 0.95]

theorem oneYear_lastTime {c : NodeCurve Float} (h : oneYear = .ok c) : (c.view false).lastTime = .ok 1.0 := by
  have hyear : (DayCount.actual365Fixed.yearFraction OneYear.start OneYear.stop : Float) = 1.0 := by
    decide +kernel
  cases h
  exact (CurveView.timeOf_eq rfl _).trans (congrArg Except.ok hyear)

/-- In the middle of this curve the instant is inside together with the time. -/
theorem coincident_refused_middle : ∃ c, oneYear = .ok c ∧
    (((c.view false).forwardRateUnder 0.5 0.5 .simple .annual).OutOfRange ↔
      ((c.view false).forwardRate 0.5 0.5 false).OutOfRange) := by
  obtain ⟨c, hc⟩ : ∃ c, oneYear = .ok c := ⟨_, rfl⟩
  have hlast := oneYear_lastTime hc
  refine ⟨c, hc, ((CurveView.coincident_refused_iff rfl hlast (c.view_unranged false)).1 _ _ _).mpr fun _ => ?_⟩
  rw [CurveView.outside_iff hlast, CurveView.outside_iff hlast, CurveView.outside_iff hlast]
  decide

/-- A year before the reference date and on the day before it the instant is inside, although the time is not;
at the end of the curve it is outside, although the time is not. -/
theorem coincident_not_refused : ∃ c, oneYear = .ok c ∧
    ¬(((c.view false).forwardRateUnder (-1.0) (-1.0) .simple .annual).OutOfRange ↔
      ((c.view false).forwardRate (-1.0) (-1.0) false).OutOfRange) ∧
    ¬(((c.view false).forwardRateBetween OneYear.eve OneYear.eve .actual365Fixed .simple .annual).OutOfRange ↔
      ((c.view false).discountOn OneYear.eve).OutOfRange) ∧
    ¬(((c.view false).forwardRateUnder 1.0 1.0 .simple .annual).OutOfRange ↔
      ((c.view false).forwardRate 1.0 1.0 false).OutOfRange) := by
  obtain ⟨c, hc⟩ : ∃ c, oneYear = .ok c := ⟨_, rfl⟩
  have hlast := oneYear_lastTime hc
  have hrange := c.view_unranged false
  have outside_iff := CurveView.outside_iff hlast
  have forward (t : Float) := CurveView.forwardRate_outOfRange rfl hlast hrange t
  have forwardUnder (t : Float) : ((c.view false).forwardRateUnder t t .simple .annual).OutOfRange ↔ _ :=
    CurveView.forwardRateUnder_outOfRange rfl hlast hrange t
  have htime : (c.view false).timeOf OneYear.eve = .ok (-1.0 / 365.0) := by
    cases hc
    rfl
  refine ⟨c, hc, ?_, ?_, ?_⟩
  · rw [forwardUnder, forward, outside_iff, outside_iff, outside_iff]
    decide
  · rw [CurveView.forwardRateBetween_outOfRange rfl hlast hrange htime,
      CurveView.discountOn_outOfRange rfl hlast hrange htime, outside_iff, outside_iff]
    decide
  · rw [forwardUnder, forward, outside_iff, outside_iff, outside_iff]
    decide +kernel

end RateCurves
