import RateCurves.Proofs.Calendar.Order
import RateCurves.Proofs.Curve.Coincident
import RateCurves.Proofs.Scalar.Closeness

/-!
# The times that a curve accepts

Without extrapolation the range check is meant to accept finite times from zero to the end of the curve, up to
a tolerance relative to the later of the time and the end (`CurveView.InDomain`). On doubles it accepts no
other finite time. But it refuses a time only if a comparison holds: none holds of what is not a number, and
infinity is close to every end, as the tolerance relative to it is infinite. So the check does what it is meant
to do exactly at the times that are finite or negative (`CurveView.checkTime_domain_iff`). All this rests on the
end being a number of ordinary size, as it is the time between two dates (`DayCount.yearFraction_represents`).
-/

namespace RateCurves

open Scalar

/-! ## Times between dates -/

namespace DayCount

open Double

theorem yearLength_represents (dc : DayCount) : Represents (Float.ofInt dc.yearLength) dc.yearLength :=
  ofInt_represents dc.yearLength_pos (by cases dc <;> decide)

section days

variable {dc : DayCount} {a b : Date}

theorem years_bounds (dc : DayCount) {n : ℤ} (hpos : 0 < n) (hhigh : n ≤ 192000000) :
    1 / 365 ≤ (n / dc.yearLength : ℚ) ∧ (n / dc.yearLength : ℚ) ≤ 192000000 := by
  have hlength : 1 ≤ dc.yearLength ∧ dc.yearLength ≤ 365 := by cases dc <;> decide
  have hone : (1 : ℚ) ≤ dc.yearLength := by exact_mod_cast hlength.1
  have hyear : (dc.yearLength : ℚ) ≤ 365 := by exact_mod_cast hlength.2
  have hday : (1 : ℚ) ≤ n := by exact_mod_cast hpos
  have hmost : (n : ℚ) ≤ 192000000 := by exact_mod_cast hhigh
  constructor
  · rw [div_le_div_iff₀ (by norm_num) (by linarith)]
    linarith
  · exact (div_le_self (by linarith) hone).trans hmost

/-- The rounded time for a positive number of days. -/
theorem yearFraction_near (h : 0 < dc.days a b) : ∃ q, Represents (dc.yearFraction a b) q ∧
    (dc.days a b / dc.yearLength : ℚ) - 1 / 2 ^ 20 ≤ q ∧ q ≤ dc.days a b / dc.yearLength + 1 / 2 ^ 20 := by
  obtain ⟨-, hhigh⟩ := dc.days_bounds a b
  obtain ⟨hlow, hmost⟩ := dc.years_bounds h hhigh
  have hrounds := div_rounds (ofInt_represents h (by omega)) dc.yearLength_represents
  exact hrounds.near (by linarith) (by linarith)

theorem yearFraction_zero (h : dc.days a b = 0) : (dc.yearFraction a b : Float) = 0.0 := by
  rw [yearFraction, h]
  cases dc <;> rfl

theorem yearFraction_zero_le (h : 0 ≤ dc.days a b) : (0.0 : Float) ≤ dc.yearFraction a b := by
  rcases h.eq_or_lt with hzero | hpos
  · rw [yearFraction_zero hzero.symm]
    decide
  · obtain ⟨q, hq, -⟩ := yearFraction_near hpos
    exact OrderedScalar.le_of_lt hq.zero_lt

theorem yearFraction_neg (h : dc.days a b < 0) : (dc.yearFraction a b : Float) < 0.0 := by
  obtain ⟨hlow, -⟩ := dc.days_bounds a b
  obtain ⟨n, hn⟩ := Int.eq_negSucc_of_lt_zero h
  have hdays : Represents (Float.ofInt n.succ) n.succ := ofInt_represents (by omega) (by omega)
  obtain ⟨z, hz⟩ := exists_represents_zpow (by norm_num : -1074 ≤ (-9 : ℤ)) (by norm_num)
  obtain ⟨hyears, -⟩ := dc.years_bounds (by omega : (0 : ℤ) < n.succ) (by omega)
  rw [yearFraction, hn]
  refine neg_div_neg hdays dc.yearLength_represents hz ?_
  norm_num at hyears ⊢
  linarith

end days

theorem yearFraction_represents (dc : DayCount) (a b : Date) (h : 0.0 < (dc.yearFraction a b : Float)) :
    ∃ q, Represents (dc.yearFraction a b) q ∧ 1 / 512 ≤ q ∧ q ≤ 2 ^ 28 := by
  rcases lt_trichotomy (dc.days a b) 0 with hneg | hzero | hpos
  · exact absurd h (OrderedScalar.not_lt_of_le (OrderedScalar.le_of_lt (yearFraction_neg hneg)))
  · rw [yearFraction_zero hzero] at h
    exact absurd h (by decide)
  · obtain ⟨q, hq, hlow, hhigh⟩ := yearFraction_near hpos
    obtain ⟨hleast, hmost⟩ := dc.years_bounds hpos (dc.days_bounds a b).2
    exact ⟨q, hq, by linarith, by linarith⟩

end DayCount

/-! ## The range check -/

namespace CurveView

open Double

variable {c : CurveView Float} {last t : Float}

/-- The times from zero to the end of a curve, up to a tolerance relative to the later of the two. -/
structure InDomain (last t : Float) : Prop where
  finite : isFinite t = true
  nonneg : 0.0 ≤ t
  le : t ≤ last + 42.0 * epsilon * Scalar.max t last

theorem lastTime_represents (hlast : c.lastTime = .ok last) (hpositive : 0.0 < last) :
    ∃ q, Represents last q ∧ 1 / 512 ≤ q ∧ q ≤ 2 ^ 28 := by
  cases hreference : c.reference with
  | error e =>
    rw [lastTime, timeOf, hreference] at hlast
    cases hlast
  | ok reference =>
    rw [lastTime, timeOf_eq hreference] at hlast
    obtain rfl := Except.ok.inj hlast
    exact c.dayCount.yearFraction_represents reference c.lastDate hpositive

section closed

variable (hclosed : c.extrapolates = false) (hlast : c.lastTime = .ok last) (hpositive : 0.0 < last)
include hclosed hlast hpositive

theorem checkTime_inDomain (hfinite : isFinite t = true) (hcheck : c.checkTime t false = .ok ()) :
    InDomain last t := by
  obtain ⟨hneg, hpast⟩ : ¬t < 0.0 ∧ ¬(last < t ∧ closeEnough t last = false) := by
    rw [← not_or, ← outside_iff hlast]
    rcases checkTime_closed hclosed hlast t with h | h
    · exact h.1
    · exact absurd h.2 (Outcome.not_outOfRange_ok hcheck)
  obtain ⟨r, hr, hlow, hhigh⟩ := lastTime_represents hlast hpositive
  have ht := OrderedScalar.le_self_of_finite hfinite
  have hself : last ≤ last := (hr.le_iff hr).mpr le_rfl
  have htolerance : (42.0 * epsilon : Float) = tolerance defaultUnits := by decide
  refine ⟨hfinite, OrderedScalar.le_of_not_lt ht (by decide) hneg, ?_⟩
  rw [htolerance, OrderedScalar.max_eq ht hself]
  by_cases hlt : last < t
  · obtain ⟨q, hq⟩ := represents_of_pos hfinite (OrderedScalar.lt_trans hpositive hlt)
    have hclose : closeEnough t last = true := by
      rw [← Bool.not_eq_false]
      exact fun h => hpast ⟨hlt, h⟩
    have hqr := (hr.lt_iff hq).mp hlt
    rw [if_neg (OrderedScalar.not_lt_of_le (OrderedScalar.le_of_lt hlt))]
    exact le_add_of_closeEnough hq hr hlow hqr hhigh hclose
  · -- the time is not past the end, and the tolerance is not negative
    have hle := OrderedScalar.le_of_not_lt hself ht hlt
    obtain ⟨p, hp⟩ : ∃ p, Represents (tolerance defaultUnits * if t < last then last else t) p := by
      split_ifs with hbefore
      · exact tolerance_mul_represents hr hlow
      · obtain ⟨q, hq, hlow', -⟩ := hr.between hr (OrderedScalar.le_of_not_lt ht hself hbefore) hle
        exact tolerance_mul_represents hq (hlow.trans hlow')
    exact OrderedScalar.le_trans hle ((add_rounds hr hp).below hr (by linarith [hp.pos]))

/-- **The times that the check accepts.** Without extrapolation the check accepts a time only in the domain of
the curve, and whether or not extrapolation is allowed by the curve or on request it does not accept what is
not a number: this holds exactly of the times that are finite or negative. -/
theorem checkTime_domain_iff (t : Float) :
    ((c.checkTime t false = .ok () → InDomain last t) ∧
        (isNaN t = true → ∀ extrapolates extrapolate,
          ({ c with extrapolates } : CurveView Float).checkTime t extrapolate ≠ .ok ())) ↔
      isFinite t = true ∨ t < 0.0 := by
  constructor
  · rintro ⟨hdomain, -⟩
    by_contra hneither
    obtain ⟨hnot, hneg⟩ := not_or.mp hneither
    obtain ⟨r, hr, -, -⟩ := lastTime_represents hlast hpositive
    have hinside : ¬c.Outside t := by
      rw [outside_iff hlast, not_or]
      refine ⟨hneg, ?_⟩
      rintro ⟨hlt, hclose⟩
      rcases unpack_of_not_finite (Bool.eq_false_of_not_eq_true hnot) with hnan | ⟨_ | _, hinf⟩
      · exact not_lt_of_notANumber hnan last hlt
      · exact hneg (infinity_neg hinf)
      · exact absurd (closeEnough_infinity hinf hr) (by rw [hclose]; decide)
    obtain ⟨-, hcheck⟩ := (checkTime_closed hclosed hlast t).resolve_right fun h => hinside h.1
    exact hnot (hdomain hcheck).finite
  · rintro (hfinite | hneg)
    · refine ⟨checkTime_inDomain hclosed hlast hpositive hfinite, fun hnan => ?_⟩
      rw [OrderedScalar.isNaN_eq_false (OrderedScalar.le_self_of_finite hfinite)] at hnan
      cases hnan
    · have hrefused (c : CurveView Float) (extrapolate : Bool) : c.checkTime t extrapolate ≠ .ok () := by
        rw [checkTime, if_pos hneg]
        intro hcheck
        cases hcheck
      exact ⟨fun hcheck => absurd hcheck (hrefused c false), fun _ _ => hrefused _⟩

end closed

end CurveView

/-- In the middle of a curve over one year the check does what it is meant to do. -/
theorem checkTime_domain_middle : ∃ c, oneYear = .ok c ∧
    (((c.view false).checkTime 0.5 false = .ok () → CurveView.InDomain 1.0 0.5) ∧
      (isNaN (0.5 : Float) = true → ∀ extrapolates extrapolate,
        (c.view extrapolates).checkTime 0.5 extrapolate ≠ .ok ())) := by
  obtain ⟨c, hc⟩ : ∃ c, oneYear = .ok c := ⟨_, rfl⟩
  have hlast := oneYear_lastTime hc
  exact ⟨c, hc, (CurveView.checkTime_domain_iff rfl hlast (by decide) 0.5).mpr (.inl (by decide))⟩

/-- On this curve the check accepts what is not a number, with and without extrapolation, and infinity. -/
theorem checkTime_not_domain : ∃ c, oneYear = .ok c ∧
    isNaN (0.0 / 0.0 : Float) = true ∧
    (c.view false).checkTime (0.0 / 0.0) false = .ok () ∧
    (c.view false).checkTime (0.0 / 0.0) true = .ok () ∧
    (c.view false).checkTime (1.0 / 0.0) false = .ok () ∧
    ¬CurveView.InDomain 1.0 (0.0 / 0.0) ∧ ¬CurveView.InDomain 1.0 (1.0 / 0.0) := by
  obtain ⟨c, hc⟩ : ∃ c, oneYear = .ok c := ⟨_, rfl⟩
  have hlast := oneYear_lastTime hc
  have accepted {t : Float} (hnonneg : ¬t < 0.0) (hpast : ¬(1.0 < t ∧ closeEnough t 1.0 = false)) :
      (c.view false).checkTime t false = .ok () := by
    rcases CurveView.checkTime_closed rfl hlast t with h | h
    · exact h.2
    · exact absurd ((CurveView.outside_iff hlast t).mp h.1) (not_or.mpr ⟨hnonneg, hpast⟩)
  refine ⟨c, hc, by decide, accepted (by decide) (by decide), ?_, accepted (by decide) (by decide), fun h => ?_,
    fun h => ?_⟩
  · exact CurveView.checkTime_passes hlast (by decide) (.inl rfl)
  · exact absurd h.finite (by decide)
  · exact absurd h.finite (by decide)

end RateCurves
