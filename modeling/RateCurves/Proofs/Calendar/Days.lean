import RateCurves.Proofs.Calendar.Advance

/-!
# Adding days

A day number has at most one date, as later dates have greater numbers, and every number from that of the first
date to that of the last one has a date: the year found for it is in range, and so are the month and the day that
the search through the year ends with (`Date.monthAndDay_inside`). So finding a date by its number is the inverse of
numbering the dates (`Date.ofDayNumber?_eq_some_iff`), and a date to which days are added is the one with the sum as
its number (`Date.addDays_ok_iff`). Hence the days between dates add up and the additions of days compose
(`Date.addDays_acts`).
-/

namespace RateCurves.Date

variable {a b d : Date} {m n : ℤ}

/-! ## Numbers of dates -/

theorem dayNumber_strictMono : StrictMono dayNumber := fun _ _ h => dayNumber_lt h

theorem dayNumber_inj : a.dayNumber = b.dayNumber ↔ a = b := dayNumber_strictMono.injective.eq_iff

theorem first_le (d : Date) : first ≤ d := by
  have hyear := d.year_ge
  have hmonth := d.month_pos
  have hday := d.day_pos
  apply not_lt.mp
  rw [lt_iff]
  simp only [first]
  omega

theorem le_last (d : Date) : d ≤ last := by
  have hyear := d.year_le
  have hmonth := d.month_le
  have hday := d.day_le_longest
  apply not_lt.mp
  rw [lt_iff]
  simp only [last]
  omega

/-- The numbers from that of the first date to that of the last one. -/
def Numbered (n : ℤ) : Prop := first.dayNumber ≤ n ∧ n ≤ last.dayNumber

theorem numbered (d : Date) : Numbered d.dayNumber :=
  ⟨dayNumber_strictMono.monotone d.first_le, dayNumber_strictMono.monotone d.le_last⟩

/-! ## Dates of numbers -/

/-- The search through a year that holds the day ends in one of the months searched, on a day of it. -/
theorem monthAndDay_inside (year : ℤ) (more month rest : ℕ)
    (h : daysBeforeMonth year month + rest < daysBeforeMonth year (month + more + 1)) :
    (month ≤ (monthAndDay year more month rest).1 ∧ (monthAndDay year more month rest).1 ≤ month + more) ∧
      1 ≤ (monthAndDay year more month rest).2 ∧
      (monthAndDay year more month rest).2 ≤ daysInMonth year (monthAndDay year more month rest).1 := by
  induction more generalizing month rest with
  | zero =>
    have hnext : daysBeforeMonth year (month + 0 + 1) = daysBeforeMonth year month + daysInMonth year month := rfl
    simp only [monthAndDay]
    omega
  | succ more ih =>
    have hnext : daysBeforeMonth year (month + 1) = daysBeforeMonth year month + daysInMonth year month := rfl
    unfold monthAndDay
    split_ifs with hrest
    · simp only
      omega
    · rw [show month + (more + 1) + 1 = month + 1 + more + 1 by omega] at h
      have := ih (month + 1) (rest - daysInMonth year month) (by omega)
      omega

theorem yearOfDayNumber_inside (h : Numbered n) : -262143 ≤ yearOfDayNumber n ∧ yearOfDayNumber n ≤ 262142 := by
  obtain ⟨hlow, hhigh⟩ := yearOfDayNumber_spec n
  have hfirst : first.dayNumber = daysBeforeYear (-262143) + 1 := by decide
  have hlast : last.dayNumber = daysBeforeYear 262143 := by decide
  obtain ⟨hleast, hgreatest⟩ := h
  constructor
  · by_contra hbefore
    have := daysBeforeYear_le (show yearOfDayNumber n + 1 ≤ -262143 by omega)
    omega
  · by_contra hafter
    have := daysBeforeYear_le (show 262143 ≤ yearOfDayNumber n by omega)
    omega

theorem exists_ofDayNumber? (h : Numbered n) : ∃ d, ofDayNumber? n = some d := by
  obtain ⟨hlow, hhigh⟩ := yearOfDayNumber_spec n
  rw [daysBeforeYear_succ] at hhigh
  have hfirst : daysBeforeMonth (yearOfDayNumber n) 1 = 0 := rfl
  obtain ⟨hmonth, hday⟩ := monthAndDay_inside (yearOfDayNumber n) 11 1
    (n - daysBeforeYear (yearOfDayNumber n) - 1).toNat (by simp only [Nat.reduceAdd]; omega)
  simp only [ofDayNumber?, ofParts?]
  rw [dif_pos ⟨yearOfDayNumber_inside h, hmonth, hday⟩]
  exact ⟨_, rfl⟩

/-- Finding a date by its number is the inverse of numbering the dates. -/
theorem ofDayNumber?_eq_some_iff : ofDayNumber? n = some d ↔ d.dayNumber = n := by
  refine ⟨dayNumber_of_ofDayNumber?, ?_⟩
  rintro rfl
  obtain ⟨e, he⟩ := exists_ofDayNumber? d.numbered
  have hsame := dayNumber_of_ofDayNumber? he
  rw [he, dayNumber_inj.mp hsame]

/-! ## Adding days -/

theorem addDays_ok_iff : d.addDays n = .ok a ↔ a.dayNumber = d.dayNumber + n := by
  refine ⟨addDays_dayNumber, fun h => ?_⟩
  unfold addDays
  simp only [ofDayNumber?_eq_some_iff.mpr h]

theorem exists_addDays_iff : (∃ a, d.addDays n = .ok a) ↔ Numbered (d.dayNumber + n) := by
  constructor
  · rintro ⟨a, ha⟩
    exact addDays_ok_iff.mp ha ▸ a.numbered
  · intro h
    obtain ⟨a, ha⟩ := exists_ofDayNumber? h
    exact ⟨a, addDays_ok_iff.mpr (ofDayNumber?_eq_some_iff.mp ha)⟩

theorem addDays_refused (h : ¬Numbered (d.dayNumber + n)) : d.addDays n = .error (.daysOutOfRange d n) := by
  rw [← exists_addDays_iff] at h
  unfold addDays at h ⊢
  cases hfound : ofDayNumber? (d.dayNumber + n) with
  | none => rfl
  | some a => exact absurd ⟨a, by rw [hfound]⟩ h

theorem addDays_daysBetween (h : d.addDays n = .ok a) : d.daysBetween a = n := by
  have := addDays_ok_iff.mp h
  unfold daysBetween
  omega

theorem addDays_addDays (h : d.addDays m = .ok a) : a.addDays n = .ok b ↔ d.addDays (m + n) = .ok b := by
  rw [addDays_ok_iff, addDays_ok_iff, addDays_ok_iff.mp h, add_assoc]

theorem lt_iff_daysBetween : a < b ↔ 0 < a.daysBetween b := by
  rw [← dayNumber_strictMono.lt_iff_lt, daysBetween]
  omega

/-- **Adding days acts on the dates.** Any number of days, of either sign, can be added to a date exactly when the sum
with its number is the number of a date, and then this is the date that lies so many days later. What is added in
two steps is added at once, and the days between dates are those of a scale on which the dates are ordered: they
add up and change sign with the direction, as do the day counts in actual days. -/
theorem addDays_acts (d : Date) :
    (∀ n, (∃ a, d.addDays n = .ok a) ↔
      first.dayNumber ≤ d.dayNumber + n ∧ d.dayNumber + n ≤ last.dayNumber) ∧
    (∀ n, ¬(first.dayNumber ≤ d.dayNumber + n ∧ d.dayNumber + n ≤ last.dayNumber) →
      d.addDays n = .error (.daysOutOfRange d n)) ∧
    (∀ n a, d.addDays n = .ok a → d.daysBetween a = n) ∧
    (∀ m n a b, d.addDays m = .ok a → (a.addDays n = .ok b ↔ d.addDays (m + n) = .ok b)) ∧
    (∀ a b, a.daysBetween d = -d.daysBetween a ∧ d.daysBetween a + a.daysBetween b = d.daysBetween b) ∧
    (∀ a, d < a ↔ 0 < d.daysBetween a) ∧
    (∀ dc : DayCount, dc = .actual360 ∨ dc = .actual365Fixed →
      ∀ a b, dc.days a d = -dc.days d a ∧ dc.days d a + dc.days a b = dc.days d b) := by
  refine ⟨fun n => exists_addDays_iff, fun n => addDays_refused, fun n a => addDays_daysBetween,
    fun m n a b => addDays_addDays, fun a b => ?_, fun a => lt_iff_daysBetween, fun dc hactual a b => ?_⟩
  · unfold daysBetween
    constructor <;> omega
  · have hdays : dc ≠ .thirty360 := by rcases hactual with rfl | rfl <;> decide
    have hback := DayCount.days_add hdays d a d
    rw [DayCount.days_self] at hback
    exact ⟨by omega, DayCount.days_add hdays d a b⟩

/-- Two days behind the 28th of February 2024 lies the first of March, with the leap day between them; as many days
as a 64-bit number can take away cannot be taken away. -/
theorem addDays_acts_leapDay :
    let d : Date := { year := 2024, month := 2, day := 28 }
    let a : Date := { year := 2024, month := 2, day := 29 }
    let b : Date := { year := 2024, month := 3, day := 1 }
    d.addDays 1 = .ok a ∧ a.addDays 1 = .ok b ∧ d.addDays (1 + 1) = .ok b ∧ d.daysBetween b = 1 + 1 ∧
      d.addDays (-9223372036854775808) = .error (.daysOutOfRange d (-9223372036854775808)) := by
  intro d a b
  obtain ⟨-, refused, between, composed, -⟩ := addDays_acts d
  have ha : d.addDays 1 = .ok a := by decide
  have hb : d.addDays (1 + 1) = .ok b := (composed 1 1 a b ha).mp (by decide)
  exact ⟨ha, by decide, hb, between _ b hb, refused _ (by decide)⟩

end RateCurves.Date
