import RateCurves.Proofs.Scalar.Real
import RateCurves.Calendar.DayCount

/-!
# The order of dates and the counts of days

Dates are linearly ordered, and every day count from a fixed date follows that order
(`DayCount.days_le_days`): strictly for the actual days, and for months of thirty days up to the end
of a month. So in exact arithmetic a date that is not after another one has a time that is not after
its time (`DayCount.yearFraction_le`). As years are in range, no time between two dates exceeds a million
years (`DayCount.yearFraction_le_million`). Times in actual days add up over three dates
(`DayCount.yearFraction_add`).
-/

namespace RateCurves

namespace Date

variable {a b c : Date}

theorem lt_iff : a < b ↔
    a.year < b.year ∨ a.year = b.year ∧ (a.month < b.month ∨ a.month = b.month ∧ a.day < b.day) :=
  Iff.rfl

theorem eq_of_parts (hy : a.year = b.year) (hm : a.month = b.month) (hd : a.day = b.day) : a = b := by
  cases a
  cases b
  simp only at hy hm hd
  subst hy hm hd
  rfl

protected theorem lt_irrefl (a : Date) : ¬a < a := by
  rw [lt_iff]
  omega

protected theorem lt_trans (hab : a < b) (hbc : b < c) : a < c := by
  rw [lt_iff] at *
  omega

protected theorem not_lt (h : ¬a < b) : b ≤ a := by
  rw [lt_iff] at h
  by_cases heq : b = a
  · exact .inr heq
  · refine .inl (lt_iff.mpr ?_)
    by_contra hba
    exact heq (eq_of_parts (by omega) (by omega) (by omega))

instance : LinearOrder Date where
  le_refl a := .inr rfl
  le_trans a b c hab hbc := by
    rcases hab with hab | rfl
    · rcases hbc with hbc | rfl
      · exact .inl (Date.lt_trans hab hbc)
      · exact .inl hab
    · exact hbc
  lt_iff_le_not_ge a b := by
    constructor
    · intro h
      refine ⟨.inl h, ?_⟩
      rintro (hba | rfl)
      · exact Date.lt_irrefl a (Date.lt_trans h hba)
      · exact Date.lt_irrefl b h
    · rintro ⟨h | rfl, hba⟩
      · exact h
      · exact absurd (.inr rfl) hba
  le_antisymm a b hab hba := by
    rcases hab with hab | rfl
    · rcases hba with hba | rfl
      · exact absurd (Date.lt_trans hab hba) (Date.lt_irrefl a)
      · rfl
    · rfl
  le_total a b := by
    by_cases h : a < b
    · exact .inl (.inl h)
    · exact .inr (Date.not_lt h)
  toDecidableLE a b := inferInstance
  toDecidableEq a b := inferInstance
  toDecidableLT a b := inferInstance

/-! ## Day numbers -/

theorem daysInMonth_le (year : Int) (month : Nat) : daysInMonth year month ≤ 31 := by
  unfold daysInMonth
  split <;> (try split) <;> omega

theorem day_le_longest (a : Date) : a.day ≤ 31 := a.day_le.trans (daysInMonth_le _ _)

theorem daysBeforeMonth_le (year : Int) (month : Nat) : daysBeforeMonth year month ≤ 31 * month := by
  induction month with
  | zero => exact le_rfl
  | succ month ih =>
    have hlength := daysInMonth_le year month
    rw [daysBeforeMonth]
    omega

theorem daysBeforeMonth_add_le (year : Int) {m n : Nat} (h : m < n) :
    daysBeforeMonth year m + daysInMonth year m ≤ daysBeforeMonth year n := by
  induction n with
  | zero => omega
  | succ n ih =>
    rw [show daysBeforeMonth year (n + 1) = daysBeforeMonth year n + daysInMonth year n from rfl]
    rcases Nat.lt_succ_iff_lt_or_eq.mp h with h | rfl
    · have := ih h
      omega
    · exact le_refl _

theorem daysBeforeYear_succ (year : Int) :
    daysBeforeYear (year + 1) = daysBeforeYear year + daysBeforeMonth year 13 := by
  have h : daysBeforeMonth year 13 = 337 + if isLeapYear year then 29 else 28 := by
    simp only [daysBeforeMonth, daysInMonth]
    omega
  rw [h]
  unfold daysBeforeYear isLeapYear
  simp only [Bool.and_eq_true, Bool.or_eq_true, beq_iff_eq, bne_iff_ne]
  split_ifs with hleap <;> push_cast <;> omega

theorem daysBeforeYear_le {y z : Int} (h : y ≤ z) : daysBeforeYear y ≤ daysBeforeYear z := by
  simp only [daysBeforeYear]
  omega

theorem dayNumber_lt (h : a < b) : a.dayNumber < b.dayNumber := by
  have ha := a.day_le
  have hb := b.day_pos
  unfold dayNumber
  rcases lt_iff.mp h with hy | ⟨hy, hm | ⟨hm, hd⟩⟩
  · have hyear := daysBeforeYear_le (Int.add_one_le_of_lt hy)
    have hmonth := daysBeforeMonth_add_le a.year (Nat.lt_succ_of_le a.month_le)
    rw [daysBeforeYear_succ] at hyear
    simp only [Nat.succ_eq_add_one, Nat.reduceAdd] at hmonth
    omega
  · have hmonth := daysBeforeMonth_add_le a.year hm
    rw [← hy]
    omega
  · rw [← hy, ← hm]
    omega

theorem dayNumber_bounds (a : Date) : -96000000 ≤ a.dayNumber ∧ a.dayNumber ≤ 96000000 := by
  have hlow := a.year_ge
  have hhigh := a.year_le
  have hlast := a.month_le
  have hmonth := daysBeforeMonth_le a.year a.month
  have hday := a.day_le_longest
  unfold dayNumber daysBeforeYear
  simp only
  constructor <;> omega

end Date

namespace DayCount

/-- Counted from a fixed date, months of thirty days follow the order of dates. -/
theorem thirtyDayMonths_le (r : Date) {a b : Date} (h : a ≤ b) :
    thirtyDayMonths r a ≤ thirtyDayMonths r b := by
  rcases h with h | rfl
  · have ha := a.day_le_longest
    have ha0 := a.month_le
    have hb := b.day_pos
    have hb0 := b.month_pos
    rw [Date.lt_iff] at h
    unfold thirtyDayMonths
    simp only [decide_eq_true_eq]
    split_ifs <;> omega
  · exact le_refl _

theorem days_le_days (dc : DayCount) (r : Date) {a b : Date} (h : a ≤ b) :
    dc.days r a ≤ dc.days r b := by
  have actual : r.daysBetween a ≤ r.daysBetween b := by
    rcases h with h | rfl
    · have := Date.dayNumber_lt h
      unfold Date.daysBetween
      omega
    · exact le_refl _
  cases dc with
  | actual365Fixed => exact actual
  | actual360 => exact actual
  | thirty360 => exact thirtyDayMonths_le r h

theorem days_self (dc : DayCount) (r : Date) : dc.days r r = 0 := by
  have actual : r.daysBetween r = 0 := Int.sub_self _
  cases dc with
  | actual365Fixed => exact actual
  | actual360 => exact actual
  | thirty360 =>
    show thirtyDayMonths r r = 0
    unfold thirtyDayMonths
    simp only [decide_eq_true_eq]
    split_ifs <;> omega

theorem days_bounds (dc : DayCount) (a b : Date) :
    -192000000 ≤ dc.days a b ∧ dc.days a b ≤ 192000000 := by
  have actual : -192000000 ≤ a.daysBetween b ∧ a.daysBetween b ≤ 192000000 := by
    have ha := a.dayNumber_bounds
    have hb := b.dayNumber_bounds
    unfold Date.daysBetween
    omega
  cases dc with
  | actual365Fixed => exact actual
  | actual360 => exact actual
  | thirty360 =>
    have parts (d : Date) : (-262143 ≤ d.year ∧ d.year ≤ 262142) ∧ (1 ≤ d.month ∧ d.month ≤ 12) ∧
        1 ≤ d.day ∧ d.day ≤ 31 :=
      ⟨⟨d.year_ge, d.year_le⟩, ⟨d.month_pos, d.month_le⟩, d.day_pos, d.day_le_longest⟩
    have ha := parts a
    have hb := parts b
    show -192000000 ≤ thirtyDayMonths a b ∧ thirtyDayMonths a b ≤ _
    unfold thirtyDayMonths
    simp only [decide_eq_true_eq]
    constructor <;> split_ifs <;> omega

theorem days_add {dc : DayCount} (h : dc ≠ .thirty360) (a b c : Date) :
    dc.days a b + dc.days b c = dc.days a c := by
  have actual : a.daysBetween b + b.daysBetween c = a.daysBetween c := by
    unfold Date.daysBetween
    omega
  cases dc with
  | actual365Fixed => exact actual
  | actual360 => exact actual
  | thirty360 => exact absurd rfl h

theorem yearLength_pos (dc : DayCount) : 0 < dc.yearLength := by
  cases dc <;> decide

/-- A date that is not after another one has a time that is not after its time. -/
theorem yearFraction_le (dc : DayCount) (r : Date) {a b : Date} (h : a ≤ b) :
    (dc.yearFraction r a : ℝ) ≤ dc.yearFraction r b := by
  have hlength : (0 : ℝ) < dc.yearLength := by exact_mod_cast dc.yearLength_pos
  have hdays : (dc.days r a : ℝ) ≤ dc.days r b := by exact_mod_cast dc.days_le_days r h
  exact div_le_div_of_nonneg_right hdays hlength.le

theorem yearFraction_le_million (dc : DayCount) (a b : Date) : (dc.yearFraction a b : ℝ) ≤ 1000000 := by
  have hlength : (360 : ℝ) ≤ dc.yearLength := by
    have : 360 ≤ dc.yearLength := by cases dc <;> decide
    exact_mod_cast this
  have hdays : (dc.days a b : ℝ) ≤ 192000000 := by exact_mod_cast (dc.days_bounds a b).2
  show (dc.days a b : ℝ) / dc.yearLength ≤ 1000000
  rw [div_le_iff₀ (by linarith)]
  linarith

theorem yearFraction_add {dc : DayCount} (h : dc ≠ .thirty360) (a b c : Date) :
    (dc.yearFraction a b : ℝ) + dc.yearFraction b c = dc.yearFraction a c := by
  simp only [yearFraction, Scalar.ofInt_real, ← days_add h a b c, Int.cast_add, add_div]

theorem yearFraction_self (dc : DayCount) (r : Date) : (dc.yearFraction r r : ℝ) = 0 := by
  rw [yearFraction, days_self, Scalar.ofInt_real, Int.cast_zero]
  exact zero_div _

theorem yearFraction_nonneg (dc : DayCount) {a b : Date} (h : a ≤ b) : (0 : ℝ) ≤ dc.yearFraction a b :=
  dc.yearFraction_self a ▸ dc.yearFraction_le a h

end DayCount

/-! ## A year of 365 days -/

namespace OneYear

/-- The fifth of March 2023. -/
def start : Date := { year := 2023, month := 3, day := 5 }

/-- The day 365 days later. -/
def stop : Date := { year := 2024, month := 3, day := 4 }

/-- The day before the start. -/
def eve : Date := { start with day := 4, day_pos := stop.day_pos, day_le := by decide }

theorem yearFraction_stop : (DayCount.actual365Fixed.yearFraction start stop : ℝ) = 1 := by
  have : DayCount.actual365Fixed.days start stop = 365 := by decide
  rw [DayCount.yearFraction, this]
  norm_num [Scalar.ofInt_real, DayCount.yearLength]

end OneYear

end RateCurves
