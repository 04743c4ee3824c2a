import RateCurves.Proofs.Calendar.Days

/-!
# Adding months

Months are counted through the years (`Date.monthNumber`), and a date is a month together with a day of it: dates
are ordered by month and then by day (`Date.le_iff_month`), and its number is that of the last day before its month
plus the day (`Date.dayNumber_eq_daysBefore`). A date to which months are added has the month that lies so many
months later and the day cut to the length of that month (`Date.addMonths_ok_iff`). The month grows with the number
of months added, which decides between two dates whatever their days; and since a month has between 28 and 31 days,
so many days for each month added lie between the beginnings of the two months (`daysBefore_add`).
-/

namespace RateCurves

open Date (monthNumber)

variable {a b c d : Date} {m n : ℤ}

/-! ## Months -/

/-- The length of the month with the given number. -/
def monthLength (m : ℤ) : ℕ := daysInMonth (m / 12) ((m % 12).toNat + 1)

/-- The day number of the last day before the month with the given number. -/
def daysBefore (m : ℤ) : ℤ := daysBeforeYear (m / 12) + daysBeforeMonth (m / 12) ((m % 12).toNat + 1)

theorem daysInMonth_ge {month : ℕ} (h : 1 ≤ month) (year : ℤ) : 28 ≤ daysInMonth year month := by
  fun_cases daysInMonth year month <;> omega

theorem monthLength_bounds (m : ℤ) : 28 ≤ monthLength m ∧ monthLength m ≤ 31 :=
  ⟨daysInMonth_ge (by omega) _, Date.daysInMonth_le _ _⟩

theorem daysBefore_succ (m : ℤ) : daysBefore (m + 1) = daysBefore m + monthLength m := by
  unfold daysBefore monthLength
  by_cases hlast : m % 12 = 11
  · have hyear : (m + 1) / 12 = m / 12 + 1 := by omega
    have hmonth : (m + 1) % 12 = 0 := by omega
    have hfirst : daysBeforeMonth (m / 12 + 1) 1 = 0 := rfl
    have hwhole : daysBeforeMonth (m / 12) 13 = daysBeforeMonth (m / 12) 12 + daysInMonth (m / 12) 12 := rfl
    rw [hyear, hmonth, hlast, Date.daysBeforeYear_succ, hwhole]
    simp only [Int.toNat_zero, Nat.zero_add, hfirst, Int.reduceToNat, Nat.reduceAdd]
    omega
  · have hyear : (m + 1) / 12 = m / 12 := by omega
    have hmonth : ((m + 1) % 12).toNat = (m % 12).toNat + 1 := by omega
    have hnext : daysBeforeMonth (m / 12) ((m % 12).toNat + 1 + 1) =
        daysBeforeMonth (m / 12) ((m % 12).toNat + 1) + daysInMonth (m / 12) ((m % 12).toNat + 1) := rfl
    rw [hyear, hmonth, hnext]
    omega

theorem daysBefore_add (m : ℤ) (n : ℕ) :
    daysBefore m + 28 * n ≤ daysBefore (m + n) ∧ daysBefore (m + n) ≤ daysBefore m + 31 * n := by
  induction n with
  | zero => simp
  | succ n ih =>
    have hnext := daysBefore_succ (m + n)
    have hlength := monthLength_bounds (m + n)
    rw [add_assoc] at hnext
    push_cast
    omega

namespace Date

/-! ## Dates as months and days -/

theorem year_eq (d : Date) : d.monthNumber / 12 = d.year := by
  have := d.month_pos
  have := d.month_le
  unfold monthNumber
  omega

theorem month_eq (d : Date) : (d.monthNumber % 12).toNat + 1 = d.month := by
  have := d.month_pos
  have := d.month_le
  unfold monthNumber
  omega

theorem daysInMonth_eq (d : Date) : daysInMonth d.year d.month = monthLength d.monthNumber := by
  rw [monthLength, year_eq, month_eq]

theorem dayNumber_eq_daysBefore (d : Date) : d.dayNumber = daysBefore d.monthNumber + d.day := by
  rw [dayNumber, daysBefore, year_eq, month_eq]

theorem le_iff_month : a ≤ b ↔
    a.monthNumber < b.monthNumber ∨ a.monthNumber = b.monthNumber ∧ a.day ≤ b.day := by
  have := a.month_pos
  have := a.month_le
  have := b.month_pos
  have := b.month_le
  rw [← not_lt, lt_iff]
  unfold monthNumber
  omega

/-- From the month of the first date to that of the last one, every day of a month is a date. -/
theorem exists_date {day : ℕ} (hm : first.monthNumber ≤ m ∧ m ≤ last.monthNumber) (hpos : 1 ≤ day)
    (hle : day ≤ monthLength m) : ∃ d : Date, d.monthNumber = m ∧ d.day = day := by
  have hfirst : first.monthNumber = 12 * -262143 := by decide
  have hlast : last.monthNumber = 12 * 262142 + 11 := by decide
  refine ⟨⟨m / 12, (m % 12).toNat + 1, day, by omega, by omega, by omega, by omega, hpos, hle⟩, ?_, rfl⟩
  unfold monthNumber
  simp only
  omega

/-! ## Adding months -/

theorem ofParts?_eq (d : Date) : ofParts? d.year d.month d.day = some d :=
  dif_pos ⟨⟨d.year_ge, d.year_le⟩, ⟨d.month_pos, d.month_le⟩, d.day_pos, d.day_le⟩

/-- Adding months leads to the month that lies so many months later and keeps the day, as far as the month has it. -/
theorem addMonths_ok_iff : d.addMonths n = .ok a ↔
    a.monthNumber = d.monthNumber + n ∧ a.day = min d.day (daysInMonth a.year a.month) := by
  constructor
  · intro h
    refine ⟨addMonths_monthNumber h, ?_⟩
    unfold addMonths at h
    simp only at h
    split at h
    · cases h
      obtain ⟨hyear, hmonth, hday⟩ := ofParts?_eq_some ‹_›
      rw [hday, hyear, hmonth]
    · cases h
  · rintro ⟨hmonth, hday⟩
    have htotal : 12 * d.year + ((d.month : ℤ) - 1) + n = a.monthNumber := hmonth.symm
    have hparts : ofParts? a.year a.month (Nat.min d.day (daysInMonth a.year a.month)) = some a := by
      rw [show Nat.min d.day (daysInMonth a.year a.month) = a.day from hday.symm]
      exact ofParts?_eq a
    unfold addMonths
    simp only [htotal, year_eq, month_eq, hparts]

theorem exists_addMonths_iff : (∃ a, d.addMonths n = .ok a) ↔
    first.monthNumber ≤ d.monthNumber + n ∧ d.monthNumber + n ≤ last.monthNumber := by
  have hmono {b c : Date} (h : b ≤ c) : b.monthNumber ≤ c.monthNumber := by
    have := le_iff_month.mp h
    omega
  constructor
  · rintro ⟨a, ha⟩
    rw [← (addMonths_ok_iff.mp ha).1]
    exact ⟨hmono a.first_le, hmono a.le_last⟩
  · intro h
    have hpos := d.day_pos
    have hlength := monthLength_bounds (d.monthNumber + n)
    obtain ⟨a, hmonth, hday⟩ : ∃ a : Date, a.monthNumber = d.monthNumber + n ∧
        a.day = min d.day (monthLength (d.monthNumber + n)) := exists_date h (by omega) (by omega)
    refine ⟨a, addMonths_ok_iff.mpr ⟨hmonth, ?_⟩⟩
    rw [hday, daysInMonth_eq, hmonth]

theorem addMonths_refused (h : ∀ a, d.addMonths n ≠ .ok a) : d.addMonths n = .error (.monthsOutOfRange d n) := by
  unfold addMonths at h ⊢
  simp only at h ⊢
  split at h
  · exact absurd rfl (h _)
  · rfl

theorem addMonths_le (hle : d ≤ c) (ha : d.addMonths n = .ok a) (hb : c.addMonths n = .ok b) : a ≤ b := by
  obtain ⟨hmonth, hday⟩ := addMonths_ok_iff.mp ha
  obtain ⟨hmonth', hday'⟩ := addMonths_ok_iff.mp hb
  rw [daysInMonth_eq] at hday hday'
  rw [le_iff_month] at hle ⊢
  rcases hle with hlt | ⟨hsame, hle⟩
  · exact .inl (by omega)
  · have hmonths : a.monthNumber = b.monthNumber := by omega
    rw [hmonths] at hday
    exact .inr ⟨hmonths, by omega⟩

/-- The months added have between 28 and 31 days each, and cutting the day takes at most three away. -/
theorem addMonths_daysBetween (hn : 0 ≤ n) (h : d.addMonths n = .ok a) :
    28 * n - 3 ≤ d.daysBetween a ∧ d.daysBetween a ≤ 31 * n := by
  obtain ⟨k, rfl⟩ := Int.eq_ofNat_of_zero_le hn
  obtain ⟨hmonth, hday⟩ := addMonths_ok_iff.mp h
  have hlength := monthLength_bounds a.monthNumber
  have hlongest := d.day_le_longest
  have hspan := daysBefore_add d.monthNumber k
  rw [daysInMonth_eq] at hday
  rw [daysBetween, dayNumber_eq_daysBefore, dayNumber_eq_daysBefore, hmonth]
  rw [hmonth] at hday hlength
  omega

/-- **Adding months cuts the day and keeps the order.** Any number of months, of either sign, can be added to a date
exactly when the month that lies so many months away is one of the range of dates, and then they lead to that month
and to the day of the date, or to the last day of the month if that is earlier. More months lead to a later date,
and from a later date they do not lead to an earlier one; from one month on, they are worth between 28 days each,
less three, and 31 days each. Years are worth twelve months each, if so many months fit in 32 bits. -/
theorem advance_months (d : Date) (n : ℤ) :
    ((∃ a, d.advance n .months = .ok a) ↔
      first.monthNumber ≤ d.monthNumber + n ∧ d.monthNumber + n ≤ last.monthNumber) ∧
    (¬(first.monthNumber ≤ d.monthNumber + n ∧ d.monthNumber + n ≤ last.monthNumber) →
      d.advance n .months = .error (.monthsOutOfRange d n)) ∧
    (∀ a, d.advance n .months = .ok a →
      a.monthNumber = d.monthNumber + n ∧ a.day = min d.day (daysInMonth a.year a.month) ∧
      (∀ n' b, n < n' → d.advance n' .months = .ok b → a < b) ∧
      (∀ d' b, d ≤ d' → d'.advance n .months = .ok b → a ≤ b) ∧
      (1 ≤ n → 28 * n - 3 ≤ d.daysBetween a ∧ d.daysBetween a ≤ 31 * n)) ∧
    (-2 ^ 31 ≤ 12 * n ∧ 12 * n < 2 ^ 31 → d.advance n .years = d.advance (12 * n) .months) ∧
    (¬(-2 ^ 31 ≤ 12 * n ∧ 12 * n < 2 ^ 31) → d.advance n .years = .error (.yearsOverflow n)) := by
  refine ⟨exists_addMonths_iff, fun houtside => addMonths_refused fun a ha => ?_, fun a ha => ?_, fun hfits => ?_,
    fun hlarge => ?_⟩
  · exact houtside (exists_addMonths_iff.mp ⟨a, ha⟩)
  · obtain ⟨hmonth, hday⟩ := addMonths_ok_iff.mp ha
    refine ⟨hmonth, hday, fun n' b hlt hb => advance_lt ha hb hlt, fun d' b hle hb => addMonths_le hle ha hb, ?_⟩
    exact fun hpos => addMonths_daysBetween (by omega) ha
  · exact if_pos (by omega)
  · exact if_neg (by omega)

/-- A month behind the last of January 2023 lies the last of February, 28 days later; as many months and years as a
32-bit number can take away cannot be taken away, and so many years are too many months. -/
theorem advance_months_february :
    let d : Date := { year := 2023, month := 1, day := 31 }
    let a : Date := { year := 2023, month := 2, day := 28 }
    d.advance 1 .months = .ok a ∧ a.monthNumber = d.monthNumber + 1 ∧ a.day = min 31 28 ∧
      (28 * 1 - 3 ≤ d.daysBetween a ∧ d.daysBetween a ≤ 31 * 1) ∧
      d.advance (-2147483648) .months = .error (.monthsOutOfRange d (-2147483648)) ∧
      d.advance (-2147483648) .years = .error (.yearsOverflow (-2147483648)) := by
  intro d a
  have ha : d.advance 1 .months = .ok a := by decide
  obtain ⟨-, -, reached, -⟩ := advance_months d 1
  obtain ⟨-, refused, -, -, overflows⟩ := advance_months d (-2147483648)
  obtain ⟨hmonth, hday, -, -, between⟩ := reached a ha
  exact ⟨ha, hmonth, hday, between (by decide), refused (by decide), overflows (by decide)⟩

end Date

end RateCurves
