import Mathlib
import RateCurves.Proofs.Curve.Views

/-!
# Curves seen from later dates

A curve seen from a later date has the discount factors from that date on, relative to the one there
(`CurveView.implied_discountAt`). Where times add up over three dates, which they do in actual days, it
therefore does not matter whether a curve is seen from a date directly or by way of an earlier one, and the
forwards of the view are those of the curve over the shifted times (`CurveView.implied_consistent`).
-/

namespace RateCurves

open Scalar

namespace CurveView

variable {c : CurveView ℝ} {reference date early late : Date} {t start stop before after head : ℝ}
  {extrapolate : Bool}

/-- At every time that the range check lets pass the curve has a discount factor, and it is positive. -/
def Discounts (c : CurveView ℝ) (extrapolate : Bool) : Prop :=
  ∀ t, c.checkTime t extrapolate = .ok () → ∃ d, c.discountAt t = .ok d ∧ 0 < d

theorem forwardRate_of_discount (hlt : start < stop) (hbefore : c.discount start extrapolate = .ok before)
    (hafter : c.discount stop extrapolate = .ok after) :
    c.forwardRate start stop extrapolate = .ok ((Real.log before - Real.log after) / (stop - start)) := by
  obtain ⟨hstart, hbefore⟩ := discount_ok.mp hbefore
  obtain ⟨hstop, hafter⟩ := discount_ok.mp hafter
  rw [forwardRate, Outcome.require_ok.mpr (decide_eq_true hlt.le), hstart, hstop, beq_false_of_ne hlt.ne,
    hbefore, hafter]
  rfl

section reference

variable (hreference : c.reference = .ok reference)
include hreference

theorem Discounts.discountOn (hpositive : c.Discounts extrapolate) (hstart : reference ≤ date)
    (hend : date ≤ c.lastDate) : ∃ d, c.discountOn date = .ok d ∧
      c.discountAt (c.dayCount.yearFraction reference date) = .ok d ∧ 0 < d := by
  have hnonneg := c.dayCount.yearFraction_nonneg hstart
  obtain ⟨d, hd, hd0⟩ := hpositive _ (checkTime_ok (timeOf_eq hreference _) hnonneg
    (.inr (c.dayCount.yearFraction_le reference hend)))
  rw [discountOn_eq hreference (.inr hend), if_neg (not_lt.mpr hnonneg)]
  exact ⟨d, hd, hd, hd0⟩

/-! ## Views -/

/-- Seen from a later date, discount factors are those from that date on, relative to the one there. -/
theorem implied_discountAt (hlater : reference ≤ late)
    (hhead : c.discountAt (c.dayCount.yearFraction reference late) = .ok head) (ht : 0 ≤ t)
    (extrapolates : Bool) :
    (c.implied late extrapolates).discountAt t = do
      let whole ← c.discountAt (c.dayCount.yearFraction reference late + t)
      return whole / head := by
  have hnonneg := c.dayCount.yearFraction_nonneg hlater
  have hfree {s : ℝ} (hs : 0 ≤ s) : c.discount s true = c.discountAt s :=
    discount_eq (checkTime_ok (timeOf_eq hreference _) hs (.inl rfl))
  show (do
    let offset ← c.timeOf late
    let whole ← c.discount (offset + t) true
    let head ← c.discount offset true
    return whole / head : Outcome ℝ ℝ) = _
  rw [timeOf_eq hreference]
  show (do
    let whole ← c.discount (c.dayCount.yearFraction reference late + t) true
    let head ← c.discount (c.dayCount.yearFraction reference late) true
    return whole / head : Outcome ℝ ℝ) = _
  rw [hfree (add_nonneg hnonneg ht), hfree hnonneg, hhead]
  rfl

/-- In its range, and past its end where extrapolation is allowed, a view has discount factors. -/
theorem implied_discountOn (hdays : c.dayCount ≠ .thirty360) (hpositive : c.Discounts extrapolate)
    (hlater : reference ≤ late) (hend : late ≤ c.lastDate) (hdate : late ≤ date) {extrapolates : Bool}
    (hrange : date ≤ c.lastDate ∨ extrapolates = true ∧ (extrapolate || c.extrapolates) = true) :
    ∃ head whole, c.discountOn late = .ok head ∧ 0 < head ∧
      c.discountAt (c.dayCount.yearFraction reference date) = .ok whole ∧ 0 < whole ∧
      (c.implied late extrapolates).discountOn date = .ok (whole / head) := by
  obtain ⟨head, hlate, hhead, hpos⟩ := hpositive.discountOn hreference hlater hend
  have hnonneg : (0 : ℝ) ≤ c.dayCount.yearFraction late date := c.dayCount.yearFraction_nonneg hdate
  obtain ⟨whole, hwhole, hwhole0⟩ := hpositive (c.dayCount.yearFraction reference date)
    (checkTime_ok (timeOf_eq hreference _) (c.dayCount.yearFraction_nonneg (hlater.trans hdate))
      (hrange.symm.imp And.right (c.dayCount.yearFraction_le reference)))
  have hview : (c.implied late extrapolates).discountOn date =
      (c.implied late extrapolates).discountAt (c.dayCount.yearFraction late date) := by
    rw [discountOn_eq (c := c.implied late extrapolates) rfl (hrange.symm.imp_left And.left)]
    exact if_neg (not_lt.mpr hnonneg)
  rw [implied_discountAt hreference hlater hhead hnonneg, DayCount.yearFraction_add hdays, hwhole] at hview
  exact ⟨head, whole, hlate, hpos, hwhole, hwhole0, hview⟩

/-- Seen by way of an earlier date the discount factors are those seen directly. -/
theorem implied_implied_discountAt (hdays : c.dayCount ≠ .thirty360) (hearly : reference ≤ early)
    (hlate : early ≤ late) (hhead : c.discountAt (c.dayCount.yearFraction reference early) = .ok head)
    (hpos : 0 < head) (hanchor : c.discountAt (c.dayCount.yearFraction reference late) = .ok before)
    (ht : 0 ≤ t) (first second : Bool) :
    ((c.implied early first).implied late second).discountAt t = (c.implied late second).discountAt t := by
  have hoffset : (0 : ℝ) ≤ c.dayCount.yearFraction early late :=
    c.dayCount.yearFraction_nonneg hlate
  have hmiddle : (c.implied early first).discountAt ((c.implied early first).dayCount.yearFraction early late) =
      .ok (before / head) := by
    show (c.implied early first).discountAt (c.dayCount.yearFraction early late) = _
    rw [implied_discountAt hreference hearly hhead hoffset, DayCount.yearFraction_add hdays, hanchor]
    rfl
  rw [implied_discountAt (c := c.implied early first) rfl hlate hmiddle ht,
    implied_discountAt hreference (hearly.trans hlate) hanchor ht]
  show (do
    let whole ← (c.implied early first).discountAt (c.dayCount.yearFraction early late + t)
    return whole / (before / head) : Outcome ℝ ℝ) = _
  rw [implied_discountAt hreference hearly hhead (add_nonneg hoffset ht), ← add_assoc,
    DayCount.yearFraction_add hdays]
  cases c.discountAt (c.dayCount.yearFraction reference late + t) with
  | error e => rfl
  | ok whole => exact congrArg Except.ok (div_div_div_cancel_right₀ hpos.ne' whole before)

/-- A forward of a view is the one of the curve over the times shifted to its reference date. -/
theorem implied_forwardRate (hdays : c.dayCount ≠ .thirty360) (hpositive : c.Discounts extrapolate)
    (hlater : reference ≤ late) (hend : late ≤ c.lastDate) (hstart : 0 ≤ start) (hlt : start < stop)
    {extrapolates : Bool} (hrange : extrapolate = true ∨ (extrapolates = true ∧ c.extrapolates = true) ∨
      stop ≤ c.dayCount.yearFraction late c.lastDate) :
    ∃ f, (c.implied late extrapolates).forwardRate start stop extrapolate = .ok f ∧
      c.forwardRate (c.dayCount.yearFraction reference late + start)
        (c.dayCount.yearFraction reference late + stop) extrapolate = .ok f := by
  obtain ⟨head, -, hhead, hpos⟩ := hpositive.discountOn hreference hlater hend
  have hoffset : (0 : ℝ) ≤ c.dayCount.yearFraction reference late := c.dayCount.yearFraction_nonneg hlater
  have hlast : (c.dayCount.yearFraction reference c.lastDate : ℝ) =
      c.dayCount.yearFraction reference late + c.dayCount.yearFraction late c.lastDate :=
    (DayCount.yearFraction_add hdays reference late c.lastDate).symm
  -- what holds of both ends: the view and the curve are asked within their ranges
  have both {t : ℝ} (ht : 0 ≤ t) (hle : t ≤ stop) : ∃ d,
      c.discount (c.dayCount.yearFraction reference late + t) extrapolate = .ok d ∧ 0 < d ∧
        (c.implied late extrapolates).discount t extrapolate = .ok (d / head) := by
    have hview : (c.implied late extrapolates).checkTime t extrapolate = .ok () := by
      refine checkTime_ok (timeOf_eq rfl _) ht ?_
      rcases hrange with h | ⟨h, -⟩ | h
      · exact .inl (by rw [h, Bool.true_or])
      · exact .inl (by rw [show (c.implied late extrapolates).extrapolates = true from h, Bool.or_true])
      · exact .inr (hle.trans h)
    have hcurve : c.checkTime (c.dayCount.yearFraction reference late + t) extrapolate = .ok () := by
      refine checkTime_ok (timeOf_eq hreference _) (add_nonneg hoffset ht) ?_
      rcases hrange with h | ⟨-, h⟩ | h
      · exact .inl (by rw [h, Bool.true_or])
      · exact .inl (by rw [h, Bool.or_true])
      · exact .inr (hlast ▸ add_le_add_right (hle.trans h) _)
    obtain ⟨d, hd, hd0⟩ := hpositive _ hcurve
    refine ⟨d, discount_ok.mpr ⟨hcurve, hd⟩, hd0, discount_ok.mpr ⟨hview, ?_⟩⟩
    rw [implied_discountAt hreference hlater hhead ht, hd]
    rfl
  obtain ⟨before, hbefore, hbefore0, hbefore'⟩ := both hstart hlt.le
  obtain ⟨after, hafter, hafter0, hafter'⟩ := both (hstart.trans hlt.le) le_rfl
  refine ⟨_, forwardRate_of_discount hlt hbefore' hafter', ?_⟩
  rw [forwardRate_of_discount (add_lt_add_right hlt _) hbefore hafter, Real.log_div hbefore0.ne' hpos.ne',
    Real.log_div hafter0.ne' hpos.ne', sub_sub_sub_cancel_right, add_sub_add_left_eq_sub]

/-- **Re-anchoring is consistent and composes.** Of a curve that counts actual days and has positive discount
factors wherever it may be asked, the view from a later date times the discount factor there is the curve
again; by way of an earlier date it gives the same answers on all dates as directly, past the end too where
extrapolation is allowed; and its forwards are those over the shifted times. -/
theorem implied_consistent (hdays : c.dayCount ≠ .thirty360) (hpositive : c.Discounts extrapolate)
    (hearly : reference ≤ early) (hlate : early ≤ late) (hend : late ≤ c.lastDate) (first second : Bool) :
    (∀ date, early ≤ date → date ≤ c.lastDate →
      ∃ v head whole, (c.implied early first).discountOn date = .ok v ∧ c.discountOn early = .ok head ∧
        c.discountOn date = .ok whole ∧ v * head = whole) ∧
    (∀ date, ((c.implied early first).implied late second).discountOn date =
        (c.implied late second).discountOn date ∧
      (late ≤ date → date ≤ c.lastDate ∨ second = true ∧ (extrapolate || c.extrapolates) = true →
        ∃ v, (c.implied late second).discountOn date = .ok v)) ∧
    (∀ start stop, 0 ≤ start → start < stop →
      extrapolate = true ∨ (first = true ∧ c.extrapolates = true) ∨
        stop ≤ c.dayCount.yearFraction early c.lastDate →
      ∃ f, (c.implied early first).forwardRate start stop extrapolate = .ok f ∧
        c.forwardRate (c.dayCount.yearFraction reference early + start)
          (c.dayCount.yearFraction reference early + stop) extrapolate = .ok f) := by
  refine ⟨?_, ?_, ?_⟩
  · intro date hstart hdate
    obtain ⟨head, whole, hhead, hpos, hwhole, -, hview⟩ := implied_discountOn hreference hdays hpositive hearly
      (hlate.trans hend) hstart (.inl hdate)
    obtain ⟨whole', hdiscount, hwhole', -⟩ := hpositive.discountOn hreference (hearly.trans hstart) hdate
    obtain rfl := Except.ok.inj (hwhole.symm.trans hwhole')
    exact ⟨_, head, whole, hview, hhead, hdiscount, div_mul_cancel₀ whole hpos.ne'⟩
  · intro date
    constructor
    · obtain ⟨head, -, hhead, hpos⟩ := hpositive.discountOn hreference hearly (hlate.trans hend)
      obtain ⟨anchor, -, hanchor, -⟩ := hpositive.discountOn hreference (hearly.trans hlate) hend
      show ((c.implied early first).implied late second).discount (c.dayCount.yearFraction late date) false =
        (c.implied late second).discount (c.dayCount.yearFraction late date) false
      rcases lt_or_ge (c.dayCount.yearFraction late date : ℝ) 0 with hneg | hnonneg
      · rw [discount, discount, checkTime_negative hneg, checkTime_negative hneg]
        rfl
      · exact discount_congr rfl
          (implied_implied_discountAt hreference hdays hearly hlate hhead hpos hanchor hnonneg first second)
    · intro hdate hrange
      obtain ⟨head, whole, -, -, -, -, hview⟩ := implied_discountOn hreference hdays hpositive
        (hearly.trans hlate) hend hdate hrange
      exact ⟨_, hview⟩
  · intro start stop hstart hlt hrange
    exact implied_forwardRate hreference hdays hpositive hearly (hlate.trans hend) hstart hlt hrange

end reference

end CurveView

/-- A flat curve of five per cent, seen from January 2024 and from there from July 2025. -/
theorem implied_consistent_flat :
    let c : CurveView ℝ := (FlatCurve.continuous { year := 2023, month := 3, day := 5 } (.of ()) .actual360).view
      (fun _ => some 0.05) false
    let early : Date := { year := 2024, month := 1, day := 10 }
    let late : Date := { year := 2025, month := 7, day := 10 }
    let date : Date := { year := 2026, month := 1, day := 10 }
    c.dayCount ≠ .thirty360 ∧ c.Discounts true ∧
      (∃ v head whole, (c.implied early false).discountOn date = .ok v ∧ c.discountOn early = .ok head ∧
        c.discountOn date = .ok whole ∧ v * head = whole) ∧
      ((c.implied early false).implied late true).discountOn date = (c.implied late true).discountOn date ∧
      ∃ f, (c.implied early false).forwardRate 1 2 true = .ok f ∧
        c.forwardRate (c.dayCount.yearFraction { year := 2023, month := 3, day := 5 } early + 1)
          (c.dayCount.yearFraction { year := 2023, month := 3, day := 5 } early + 2) true = .ok f := by
  intro c early late date
  have hdays : c.dayCount ≠ .thirty360 := nofun
  have hpositive : c.Discounts true := fun t _ =>
    ⟨_, FlatCurve.discountAt_continuous _ .actual360 false rfl t, Real.exp_pos _⟩
  obtain ⟨discounts, composes, forwards⟩ := CurveView.implied_consistent (c := c) rfl hdays hpositive
    (by decide : _ ≤ early) (by decide : early ≤ late) (by decide : late ≤ Date.last) false true
  exact ⟨hdays, hpositive, discounts date (by decide) (by decide : date ≤ Date.last), (composes date).1,
    forwards 1 2 zero_le_one one_lt_two (.inl rfl)⟩

end RateCurves
