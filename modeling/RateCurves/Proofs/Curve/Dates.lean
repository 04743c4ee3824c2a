import RateCurves.Proofs.Calendar.Advance
import RateCurves.Proofs.Curve.Domain

/-!
# Dates and times in the range of a curve

A curve checks a date by comparing dates and a time by comparing times. Times compare as the numbers of days they
are made from (`DayCount.yearFraction_neg_iff`, `DayCount.yearFraction_past_iff`): different numbers of days are too
far apart for rounding or the tolerance of the range check to matter. So the two checks differ only where the numbers
of days do not follow the order of the dates, which is where months of thirty days count two dates in a row as one
(`DayCount.days_eq_iff`). On a curve that does not end before it begins, the check of the time passes in addition the
date before the beginning and the date behind the end if they are counted as one with them
(`CurveView.checkTime_date_iff`).
-/

namespace RateCurves

open Scalar

namespace DayCount

variable {dc : DayCount} {r a b : Date}

/-! ## Dates with the same number of days -/

/-- Counted from `r` in months of thirty days, a 31st and the first behind it are one day, or the 30th and the 31st
of a month if `r` itself is one of those. -/
def Merges (r a b : Date) : Prop :=
  r.day < 30 ∧ a.day = 31 ∧ b.day = 1 ∧ b.monthNumber = a.monthNumber + 1 ∨
    30 ≤ r.day ∧ a.day = 30 ∧ b.day = 31 ∧ b.monthNumber = a.monthNumber

instance (r a b : Date) : Decidable (Merges r a b) :=
  inferInstanceAs (Decidable (_ ∧ _ ∨ _ ∧ _))

theorem thirtyDayMonths_eq_iff (h : a < b) : thirtyDayMonths r a = thirtyDayMonths r b ↔ Merges r a b := by
  have hmonth (d : Date) : 1 ≤ d.month ∧ d.month ≤ 12 := ⟨d.month_pos, d.month_le⟩
  have hday (d : Date) : 1 ≤ d.day ∧ d.day ≤ 31 := ⟨d.day_pos, d.day_le_longest⟩
  have ha := hmonth a
  have hb := hmonth b
  have ha' := hday a
  have hb' := hday b
  rw [Date.lt_iff] at h
  unfold thirtyDayMonths Merges Date.monthNumber
  simp only [decide_eq_true_eq]
  split_ifs <;> omega

/-- Only months of thirty days give two dates the same number of days. -/
theorem days_eq_iff (h : a < b) : dc.days r a = dc.days r b ↔ dc = .thirty360 ∧ Merges r a b := by
  have actual : r.daysBetween a ≠ r.daysBetween b := by
    have := Date.dayNumber_lt h
    unfold Date.daysBetween
    omega
  cases dc with
  | actual365Fixed => exact ⟨fun heq => absurd heq actual, fun heq => nomatch heq.1⟩
  | actual360 => exact ⟨fun heq => absurd heq actual, fun heq => nomatch heq.1⟩
  | thirty360 => exact (thirtyDayMonths_eq_iff h).trans (and_iff_right rfl).symm

theorem days_le_iff (dc : DayCount) (r a b : Date) :
    dc.days r b ≤ dc.days r a ↔ b ≤ a ∨ a < b ∧ dc = .thirty360 ∧ Merges r a b := by
  rcases le_or_gt b a with hle | hlt
  · exact iff_of_true (dc.days_le_days r hle) (.inl hle)
  · have hge := dc.days_le_days r hlt.le
    rw [or_iff_right (not_le.mpr hlt), and_iff_right hlt, ← days_eq_iff hlt]
    exact ⟨hge.antisymm, Eq.ge⟩

/-! ## Times and numbers of days -/

theorem yearFraction_neg_iff : (dc.yearFraction r a : Float) < 0.0 ↔ dc.days r a < 0 := by
  refine ⟨fun h => ?_, yearFraction_neg⟩
  by_contra hnonneg
  exact OrderedScalar.not_lt_of_le (yearFraction_zero_le (not_lt.mp hnonneg)) h

/-- Between times of different numbers of days there is more than a rounding and a tolerance. -/
theorem yearFraction_past (hnonneg : 0 ≤ dc.days r a) (hlt : dc.days r a < dc.days r b) :
    (dc.yearFraction r a : Float) < dc.yearFraction r b ∧
      closeEnough (dc.yearFraction r b : Float) (dc.yearFraction r a) = false := by
  have hposb : 0 < dc.days r b := hnonneg.trans_lt hlt
  obtain ⟨q, hq, hqlow, hqhigh⟩ := yearFraction_near hposb
  obtain ⟨hleast, hmost⟩ := dc.years_bounds hposb (dc.days_bounds r b).2
  rcases hnonneg.eq_or_lt with hzero | hpos
  · rw [yearFraction_zero hzero.symm]
    exact ⟨hq.zero_lt, Double.closeEnough_zero hq (by linarith)⟩
  · obtain ⟨p, hp, hplow, hphigh⟩ := yearFraction_near hpos
    obtain ⟨hleast', -⟩ := dc.years_bounds hpos (dc.days_bounds r a).2
    have hgap : (dc.days r a / dc.yearLength : ℚ) + 1 / 365 ≤ dc.days r b / dc.yearLength := by
      have hday : 0 < dc.days r b - dc.days r a := by omega
      obtain ⟨hone, -⟩ := dc.years_bounds hday (by linarith [(dc.days_bounds r b).2])
      push_cast at hone
      rw [sub_div] at hone
      linarith
    have hfar : p + 1 / 512 ≤ q := by linarith
    exact ⟨(hp.lt_iff hq).mpr (by linarith),
      Double.closeEnough_far hq hp (by linarith) (by linarith) (by linarith) hfar⟩

/-- A time is past another one that is not negative if there are more days to it. -/
theorem yearFraction_past_iff (hnonneg : 0 ≤ dc.days r a) :
    (dc.yearFraction r a : Float) < dc.yearFraction r b ∧
      closeEnough (dc.yearFraction r b : Float) (dc.yearFraction r a) = false ↔ dc.days r a < dc.days r b := by
  refine ⟨fun h => ?_, yearFraction_past hnonneg⟩
  by_contra hle
  rcases (not_lt.mp hle).eq_or_lt with heq | hlt
  · have hself : (dc.yearFraction r a : Float) = dc.yearFraction r b := by rw [yearFraction, yearFraction, heq]
    rw [hself] at h
    exact OrderedScalar.not_lt_of_le (OrderedScalar.le_of_lt h.1) h.1
  · have hless : (dc.yearFraction r b : Float) < dc.yearFraction r a := by
      rcases lt_or_ge (dc.days r b) 0 with hneg | hpos
      · exact OrderedScalar.lt_of_lt_of_le (yearFraction_neg hneg) (yearFraction_zero_le hnonneg)
      · exact (yearFraction_past hpos hlt).1
    exact OrderedScalar.not_lt_of_le (OrderedScalar.le_of_lt hless) h.1

end DayCount

theorem Outcome.ok_iff {α : Type} {p : Prop} {o : Outcome α Unit} (h : p ∧ o = .ok () ∨ ¬p ∧ o.OutOfRange) :
    o = .ok () ↔ p := by
  rcases h with ⟨h, hok⟩ | ⟨h, hrefused⟩
  · exact iff_of_true hok h
  · exact iff_of_false (fun hok => not_outOfRange_ok hok hrefused) h

namespace CurveView

variable {c : CurveView Float} {reference : Date}

/-! ## The two checks -/

/-- The dates that the check of the date passes. -/
structure DateInside (c : CurveView Float) (reference date : Date) (extrapolate : Bool) : Prop where
  le : reference ≤ date
  le_last : (extrapolate || c.extrapolates) = false → date ≤ c.lastDate

/-- The dates whose number of days the check of the time passes. -/
structure DaysInside (c : CurveView Float) (reference date : Date) (extrapolate : Bool) : Prop where
  nonneg : 0 ≤ c.dayCount.days reference date
  le_last : (extrapolate || c.extrapolates) = false →
    c.dayCount.days reference date ≤ c.dayCount.days reference c.lastDate

/-- A date in front of the curve or behind it has the number of days of the end that it is next to. -/
def Merged (c : CurveView Float) (date : Date) (extrapolate : Bool) : Prop :=
  c.dayCount = .thirty360 ∧ ∃ reference, c.reference = .ok reference ∧
    (date < reference ∧ DayCount.Merges reference date reference ∨
      (extrapolate || c.extrapolates) = false ∧ c.lastDate < date ∧ DayCount.Merges reference c.lastDate date)

section reference

variable (hreference : c.reference = .ok reference) (date : Date) (extrapolate : Bool)
include hreference

theorem checkDate_cases :
    c.DateInside reference date extrapolate ∧ c.checkDate date extrapolate = .ok () ∨
      ¬c.DateInside reference date extrapolate ∧ (c.checkDate date extrapolate).OutOfRange := by
  have hcheck : c.checkDate date extrapolate =
      if date < reference then .error (.dateBeforeReference date reference)
      else if (!(extrapolate || c.extrapolates) && decide (c.lastDate < date)) = true then
        .error (.datePastEnd date c.lastDate)
      else .ok () := by
    rw [checkDate, hreference, Bool.not_or]
    rfl
  rw [hcheck]
  split_ifs with hbefore hpast
  · exact .inr ⟨fun h => absurd h.le (not_le.mpr hbefore), _, rfl, rfl⟩
  · rw [Bool.and_eq_true, Bool.not_eq_true', decide_eq_true_iff] at hpast
    exact .inr ⟨fun h => absurd (h.le_last hpast.1) (not_le.mpr hpast.2), _, rfl, rfl⟩
  · rw [Bool.and_eq_true, Bool.not_eq_true', decide_eq_true_iff] at hpast
    exact .inl ⟨⟨not_lt.mp hbefore, fun hclosed => not_lt.mp fun hlt => hpast ⟨hclosed, hlt⟩⟩, rfl⟩

/-- A date that is merged with an end is not inside. -/
theorem checkDate_merged (h : c.Merged date extrapolate) : (c.checkDate date extrapolate).OutOfRange := by
  obtain ⟨-, reference', hreference', h⟩ := h
  obtain rfl := Except.ok.inj (hreference.symm.trans hreference')
  rcases checkDate_cases hreference date extrapolate with ⟨hinside, -⟩ | ⟨-, hrefused⟩
  · rcases h with ⟨hbefore, -⟩ | ⟨hclosed, hpast, -⟩
    · exact absurd hinside.le (not_le.mpr hbefore)
    · exact absurd (hinside.le_last hclosed) (not_le.mpr hpast)
  · exact hrefused

variable (hends : reference ≤ c.lastDate)
include hends

theorem outside_days_iff : c.Outside (c.dayCount.yearFraction reference date) ↔
    c.dayCount.days reference date < 0 ∨
      c.dayCount.days reference c.lastDate < c.dayCount.days reference date := by
  have hlast : c.lastTime = .ok (c.dayCount.yearFraction reference c.lastDate) := timeOf_eq hreference _
  have hnonneg : 0 ≤ c.dayCount.days reference c.lastDate := by
    rw [← c.dayCount.days_self reference]
    exact c.dayCount.days_le_days reference hends
  rw [outside_iff hlast, DayCount.yearFraction_neg_iff, DayCount.yearFraction_past_iff hnonneg]

theorem checkTime_days :
    c.DaysInside reference date extrapolate ∧
        c.checkTime (c.dayCount.yearFraction reference date) extrapolate = .ok () ∨
      ¬c.DaysInside reference date extrapolate ∧
        (c.checkTime (c.dayCount.yearFraction reference date) extrapolate).OutOfRange := by
  have hlast : c.lastTime = .ok (c.dayCount.yearFraction reference c.lastDate) := timeOf_eq hreference _
  have houtside := outside_days_iff hreference date hends
  cases hallowed : (extrapolate || c.extrapolates) with
  | true =>
    by_cases hbefore : c.dayCount.days reference date < 0
    · refine .inr ⟨fun h => absurd h.nonneg (not_le.mpr hbefore),
        .timeBeforeReference (c.dayCount.yearFraction reference date), ?_, rfl⟩
      rw [checkTime, if_pos (DayCount.yearFraction_neg hbefore)]
      rfl
    · refine .inl ⟨⟨not_lt.mp hbefore, fun hclosed => ?_⟩, checkTime_passes hlast ?_ (.inl hallowed)⟩
      · rw [hallowed] at hclosed
        cases hclosed
      · rwa [DayCount.yearFraction_neg_iff]
  | false =>
    obtain ⟨rfl, hclosed⟩ := Bool.or_eq_false_iff.mp hallowed
    rcases checkTime_closed hclosed hlast (c.dayCount.yearFraction reference date) with ⟨hin, hcheck⟩ | ⟨hout, hcheck⟩
    · rw [houtside, not_or, not_lt, not_lt] at hin
      exact .inl ⟨⟨hin.1, fun _ => hin.2⟩, hcheck⟩
    · rw [houtside] at hout
      refine .inr ⟨fun h => ?_, hcheck⟩
      rcases hout with hbefore | hpast
      · exact absurd h.nonneg (not_le.mpr hbefore)
      · exact absurd (h.le_last hallowed) (not_le.mpr hpast)

theorem discountOn_days :
    c.DaysInside reference date false ∧ c.discountOn date = c.discountAt (c.dayCount.yearFraction reference date) ∨
      ¬c.DaysInside reference date false ∧ (c.discountOn date).OutOfRange := by
  have hdiscount : c.discountOn date = c.discount (c.dayCount.yearFraction reference date) false := by
    rw [discountOn, timeOf_eq hreference]
    rfl
  rw [hdiscount]
  rcases checkTime_days hreference date false hends with ⟨hinside, hcheck⟩ | ⟨houtside, hcheck⟩
  · exact .inl ⟨hinside, discount_eq hcheck⟩
  · exact .inr ⟨houtside, Outcome.outOfRange_bind.mpr (.inl hcheck)⟩

/-- In addition to the dates inside the curve the numbers of days inside it are those of the dates that are merged
with an end. -/
theorem daysInside_iff : c.DaysInside reference date extrapolate ↔
    c.DateInside reference date extrapolate ∨ c.Merged date extrapolate := by
  have hbegin := c.dayCount.days_le_iff reference date reference
  have hend := c.dayCount.days_le_iff reference c.lastDate date
  rw [DayCount.days_self] at hbegin
  constructor
  · intro h
    rcases hbegin.mp h.nonneg with hafter | ⟨hbefore, hthirty, hmerges⟩
    · cases hallowed : (extrapolate || c.extrapolates) with
      | true => exact .inl ⟨hafter, fun hclosed => nomatch hallowed.symm.trans hclosed⟩
      | false =>
        rcases hend.mp (h.le_last hallowed) with hle | ⟨hpast, hthirty, hmerges⟩
        · exact .inl ⟨hafter, fun _ => hle⟩
        · exact .inr ⟨hthirty, reference, hreference, .inr ⟨hallowed, hpast, hmerges⟩⟩
    · exact .inr ⟨hthirty, reference, hreference, .inl ⟨hbefore, hmerges⟩⟩
  · rintro (h | ⟨hthirty, reference', hreference', h⟩)
    · exact ⟨hbegin.mpr (.inl h.le), fun hclosed => hend.mpr (.inl (h.le_last hclosed))⟩
    · obtain rfl := Except.ok.inj (hreference.symm.trans hreference')
      rcases h with ⟨hbefore, hmerges⟩ | ⟨-, hpast, hmerges⟩
      · exact ⟨hbegin.mpr (.inr ⟨hbefore, hthirty, hmerges⟩), fun _ => hend.mpr (.inl (hbefore.le.trans hends))⟩
      · exact ⟨hbegin.mpr (.inl (hends.trans hpast.le)), fun _ => hend.mpr (.inr ⟨hpast, hthirty, hmerges⟩)⟩

end reference

/-- **The check of the time and the check of the date.** On a curve that does not end before it begins the check of
the time of a date passes exactly the dates that the check of the date passes and those that months of thirty days
merge with an end of the curve; the check of the date refuses these. So a discount factor is the one at the time of
the date on exactly these dates, and on any other date it is refused because of the range, unless the curve has no
reference date. -/
theorem checkTime_date_iff (c : CurveView Float)
    (hends : ∀ reference, c.reference = .ok reference → reference ≤ c.lastDate) (date : Date) :
    (∀ extrapolate, (do c.checkTime (← c.timeOf date) extrapolate) = .ok () ↔
      c.checkDate date extrapolate = .ok () ∨ c.Merged date extrapolate) ∧
    (∀ extrapolate, c.Merged date extrapolate → (c.checkDate date extrapolate).OutOfRange) ∧
    (c.checkDate date false = .ok () ∨ c.Merged date false →
      c.discountOn date = do c.discountAt (← c.timeOf date)) ∧
    (¬(c.checkDate date false = .ok () ∨ c.Merged date false) →
      (c.discountOn date).OutOfRange ∨ ∃ e, c.reference = .error e ∧ c.discountOn date = .error e) := by
  cases hreference : c.reference with
  | error e =>
    have htime : c.timeOf date = .error e := by
      rw [timeOf, hreference]
      rfl
    have hdate (extrapolate : Bool) : c.checkDate date extrapolate = .error e := by
      rw [checkDate, hreference]
      rfl
    have hmerged (extrapolate : Bool) : ¬c.Merged date extrapolate := by
      rintro ⟨-, reference, h, -⟩
      rw [hreference] at h
      cases h
    have hrefused (extrapolate : Bool) : ¬(c.checkDate date extrapolate = .ok () ∨ c.Merged date extrapolate) := by
      rintro (h | h)
      · rw [hdate] at h
        cases h
      · exact hmerged extrapolate h
    refine ⟨fun extrapolate => iff_of_false ?_ (hrefused extrapolate),
      fun extrapolate h => absurd h (hmerged extrapolate), fun h => absurd h (hrefused false),
      fun _ => .inr ⟨e, rfl, ?_⟩⟩
    · rw [htime]
      intro h
      cases h
    · rw [discountOn, htime]
      rfl
  | ok reference =>
    have hends := hends reference hreference
    have htime := timeOf_eq hreference date
    have hinside (extrapolate : Bool) : c.checkDate date extrapolate = .ok () ∨ c.Merged date extrapolate ↔
        c.DaysInside reference date extrapolate := by
      rw [daysInside_iff hreference date extrapolate hends]
      exact or_congr_left (Outcome.ok_iff (checkDate_cases hreference date extrapolate))
    refine ⟨fun extrapolate => ?_, checkDate_merged hreference date, ?_, ?_⟩
    · rw [htime, hinside]
      exact Outcome.ok_iff (checkTime_days hreference date extrapolate hends)
    · rw [hinside, htime]
      intro h
      rcases discountOn_days hreference date hends with ⟨-, hdiscount⟩ | ⟨hnot, -⟩
      · exact hdiscount
      · exact absurd h hnot
    · rw [hinside]
      intro h
      rcases discountOn_days hreference date hends with ⟨hyes, -⟩ | ⟨-, hrefused⟩
      · exact absurd hyes h
      · exact .inl hrefused

end CurveView

/-! ## A curve that ends on the thirtieth of August -/

namespace TwoAugusts

def start : Date := { year := 2030, month := 8, day := 30 }

def stop : Date := { year := 2032, month := 8, day := 30 }

def curve : Outcome Float (NodeCurve Float) :=
  NodeCurve.ofValues .discount .thirty360 .linear [start, stop] [1.0, 0.9]

/-- The day behind the end of this curve is refused as a date, but there is a discount factor for it. -/
theorem checkTime_date_behind : ∃ c, curve = .ok c ∧
    ((c.view false).checkDate { year := 2032, month := 8, day := 31 } false).OutOfRange ∧
    (c.view false).discountOn { year := 2032, month := 8, day := 31 } = (c.view false).discountAt 2.0 := by
  obtain ⟨c, hc⟩ : ∃ c, curve = .ok c := ⟨_, rfl⟩
  have htwo : (DayCount.thirty360.yearFraction start { year := 2032, month := 8, day := 31 } : Float) = 2.0 := by
    decide +kernel
  have hreference : (c.view false).reference = .ok start := by
    cases hc
    rfl
  have hlast : (c.view false).lastDate = stop := by
    cases hc
    rfl
  have hthirty : (c.view false).dayCount = .thirty360 := by
    cases hc
    rfl
  have hends (reference : Date) (h : (c.view false).reference = .ok reference) :
      reference ≤ (c.view false).lastDate := by
    obtain rfl := Except.ok.inj (hreference.symm.trans h)
    rw [hlast]
    decide
  have hmerged : (c.view false).Merged { year := 2032, month := 8, day := 31 } false := by
    refine ⟨hthirty, start, hreference, .inr ⟨rfl, ?_⟩⟩
    rw [hlast]
    decide
  obtain ⟨-, hrefused, hdiscount, -⟩ := CurveView.checkTime_date_iff (c.view false) hends
    { year := 2032, month := 8, day := 31 }
  refine ⟨c, hc, hrefused false hmerged, ?_⟩
  rw [hdiscount (.inr hmerged), CurveView.timeOf_eq hreference, hthirty, htwo]
  rfl

/-- So the two checks differ there. -/
theorem checkTime_date_differ : ∃ c, curve = .ok c ∧ (c.view false).reference = .ok start ∧
    start ≤ (c.view false).lastDate ∧
    ¬((c.view false).checkDate { year := 2032, month := 8, day := 31 } false = .ok () ↔
      (do (c.view false).checkTime (← (c.view false).timeOf { year := 2032, month := 8, day := 31 }) false) =
        .ok ()) := by
  obtain ⟨c, hc⟩ : ∃ c, curve = .ok c := ⟨_, rfl⟩
  have htwo (date : Date) (h : (DayCount.thirty360.yearFraction start date : Float) = 2.0) :
      (c.view false).timeOf date = .ok 2.0 := by
    cases hc
    exact (CurveView.timeOf_eq rfl _).trans (congrArg Except.ok h)
  have hlast : (c.view false).lastTime = .ok 2.0 := by
    have hstop := htwo stop (by decide +kernel)
    cases hc
    exact hstop
  refine ⟨c, hc, ?_, ?_, fun h => ?_⟩
  · cases hc
    rfl
  · cases hc
    decide
  · refine absurd (h.mpr ?_) fun hdate => ?_
    · rw [htwo _ (by decide +kernel)]
      show (c.view false).checkTime 2.0 false = .ok ()
      exact CurveView.checkTime_passes hlast (by decide) (.inr (by decide))
    · cases hc
      cases hdate

end TwoAugusts

end RateCurves
