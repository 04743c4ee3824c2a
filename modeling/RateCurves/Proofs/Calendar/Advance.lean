import RateCurves.Proofs.Calendar.Order
import RateCurves.Calendar.Period

/-!
# Advancing dates

A date found by its day number has that number (`Date.dayNumber_of_ofDayNumber?`), and months are counted through
the years like days (`Date.monthNumber`). So a date that is advanced by a number of units has moved by that number
on the scale of the unit (`Date.advance_number`), however the days of the months were cut, and advancing a date
further gives a later date (`Date.advance_lt`).
-/

namespace RateCurves

namespace Date

variable {d : Date} {n : ℤ}

/-! ## Dates by their parts -/

theorem ofParts?_eq_some {year : ℤ} {month day : ℕ} (h : ofParts? year month day = some d) :
    d.year = year ∧ d.month = month ∧ d.day = day := by
  unfold ofParts? at h
  split at h
  · cases h
    exact ⟨rfl, rfl, rfl⟩
  · cases h

/-- The estimate of a year is right after its correction. -/
theorem yearOfDayNumber_spec (n : ℤ) :
    daysBeforeYear (yearOfDayNumber n) < n ∧ n ≤ daysBeforeYear (yearOfDayNumber n + 1) := by
  unfold yearOfDayNumber
  simp only
  split_ifs with hlow hhigh
  · refine ⟨?_, by simpa using hlow⟩
    unfold daysBeforeYear
    simp only
    omega
  · refine ⟨hhigh, ?_⟩
    unfold daysBeforeYear
    simp only
    omega
  · omega

theorem monthAndDay_spec (year : ℤ) (more month rest : ℕ)
    (h : daysBeforeMonth year month + rest < daysBeforeMonth year (month + more + 1)) :
    daysBeforeMonth year (monthAndDay year more month rest).1 + (monthAndDay year more month rest).2 =
      daysBeforeMonth year month + rest + 1 := by
  induction more generalizing month rest with
  | zero => rfl
  | succ more ih =>
    unfold monthAndDay
    split_ifs with hrest
    · rfl
    · have hnext : daysBeforeMonth year (month + 1) = daysBeforeMonth year month + daysInMonth year month := rfl
      rw [show month + (more + 1) + 1 = month + 1 + more + 1 by omega] at h
      have := ih (month + 1) (rest - daysInMonth year month) (by omega)
      omega

theorem dayNumber_of_ofDayNumber? (h : ofDayNumber? n = some d) : d.dayNumber = n := by
  obtain ⟨hlow, hhigh⟩ := yearOfDayNumber_spec n
  rw [daysBeforeYear_succ] at hhigh
  have hfirst : daysBeforeMonth (yearOfDayNumber n) 1 = 0 := rfl
  have hmonth := monthAndDay_spec (yearOfDayNumber n) 11 1 (n - daysBeforeYear (yearOfDayNumber n) - 1).toNat
    (by simp only [Nat.reduceAdd]; omega)
  simp only [ofDayNumber?] at h
  generalize monthAndDay (yearOfDayNumber n) 11 1 (n - daysBeforeYear (yearOfDayNumber n) - 1).toNat = found
    at h hmonth
  obtain ⟨hy, hm, hd⟩ := ofParts?_eq_some h
  unfold dayNumber
  rw [hy, hm, hd]
  omega

/-! ## The scales of the units -/

/-- The number of months from the beginning of the year zero. -/
def monthNumber (d : Date) : ℤ := 12 * d.year + (d.month - 1)

/-- Where a date stands on the scale that a unit is counted on: that of days or that of months. -/
def number (unit : TimeUnit) (d : Date) : ℤ :=
  match unit with
  | .days | .weeks => d.dayNumber
  | .months | .years => d.monthNumber

end Date

/-- The length of a unit on its scale. -/
def TimeUnit.size : TimeUnit → ℤ
  | .days | .months => 1
  | .weeks => 7
  | .years => 12

theorem TimeUnit.size_pos (unit : TimeUnit) : 0 < unit.size := by
  cases unit <;> decide

namespace Date

variable {a b d : Date} {n n' : ℤ} {unit : TimeUnit}

theorem lt_of_dayNumber (h : a.dayNumber < b.dayNumber) : a < b := by
  by_contra hnot
  rcases not_lt.mp hnot with hlt | rfl
  · have := dayNumber_lt hlt
    omega
  · omega

theorem lt_of_monthNumber (h : a.monthNumber < b.monthNumber) : a < b := by
  have ha := a.month_pos
  have hb := b.month_le
  unfold monthNumber at h
  rw [lt_iff]
  omega

theorem lt_of_number (h : a.number unit < b.number unit) : a < b := by
  cases unit with
  | days | weeks => exact lt_of_dayNumber h
  | months | years => exact lt_of_monthNumber h

theorem addDays_dayNumber (h : d.addDays n = .ok a) : a.dayNumber = d.dayNumber + n := by
  unfold addDays at h
  split at h
  · cases h
    exact dayNumber_of_ofDayNumber? ‹_›
  · cases h

theorem addMonths_monthNumber (h : d.addMonths n = .ok a) : a.monthNumber = d.monthNumber + n := by
  unfold addMonths at h
  simp only at h
  split at h
  · cases h
    obtain ⟨hy, hm, -⟩ := ofParts?_eq_some ‹_›
    unfold monthNumber
    rw [hy, hm]
    omega
  · cases h

/-- A date moves by as many units as it is advanced by. -/
theorem advance_number (h : d.advance n unit = .ok a) : a.number unit = d.number unit + unit.size * n := by
  cases unit with
  | days =>
    have := addDays_dayNumber h
    simpa [number, TimeUnit.size] using this
  | weeks => exact addDays_dayNumber h
  | months =>
    have := addMonths_monthNumber h
    simpa [number, TimeUnit.size] using this
  | years =>
    unfold advance at h
    split_ifs at h
    exact addMonths_monthNumber h

theorem advance_lt (ha : d.advance n unit = .ok a) (hb : d.advance n' unit = .ok b) (h : n < n') : a < b := by
  have hsize := mul_lt_mul_of_pos_left h unit.size_pos
  have hscale : a.number unit < b.number unit := by
    rw [advance_number ha, advance_number hb]
    omega
  exact lt_of_number hscale

end Date

end RateCurves
