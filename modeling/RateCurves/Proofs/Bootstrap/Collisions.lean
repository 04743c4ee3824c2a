import RateCurves.Proofs.Bootstrap.Frame
import RateCurves.Proofs.Calendar.Months
import RateCurves.Proofs.Curve.Dates
import RateCurves.Instrument.Loan

/-!
# Dates that months of thirty days cannot tell apart

Months of thirty days count the days from a fixed date in the order of the calendar, but not strictly: the 31st of a
month is counted as one of its two neighbours. Which one depends on the date counted from, as the convention moves a
31st to the first of the next month if that date lies before the 30th, and back to the 30th if not
(`DayCount.Collides`). No other two dates collide, and none do under the actual day counts (`DayCount.days_eq_iff`).

On doubles the times between dates are as many as the numbers of days (`DayCount.yearFraction_lt_iff`). So a loan
that is refused because it accrues no interest runs from the 30th to the 31st of a month (`accrual_error_iff`), and
a curve that is refused because a node does not come after the one before it has two neighbouring nodes that collide,
counted from its reference date (`CurveSpec.frame_collides`).
-/

namespace RateCurves

open Scalar

/-- The 30th and the 31st of one month. -/
def Date.EndMonth (a b : Date) : Prop := a.day = 30 ∧ b.day = 31 ∧ a.year = b.year ∧ a.month = b.month

instance (a b : Date) : Decidable (a.EndMonth b) := inferInstanceAs (Decidable (_ ∧ _ ∧ _ ∧ _))

namespace DayCount

variable {dc : DayCount} {r a b : Date}

/-- Counted from a date before the 30th, a 31st and the next day; counted from a 30th or a 31st, the 30th and the
31st of one month. -/
def Collides (r a b : Date) : Prop :=
  r.day < 30 ∧ a.day = 31 ∧ a.addDays 1 = .ok b ∨ (r.day = 30 ∨ r.day = 31) ∧ a.EndMonth b

instance (r a b : Date) : Decidable (Collides r a b) :=
  inferInstanceAs (Decidable (_ ∧ _ ∧ _ ∨ (_ ∨ _) ∧ _))

/-! ## The next day -/

theorem addDays_one_iff (h : a.day = 31) :
    a.addDays 1 = .ok b ↔ b.day = 1 ∧ b.monthNumber = a.monthNumber + 1 := by
  have hlength : monthLength a.monthNumber = 31 := by
    have hday := a.day_le
    have hbounds := monthLength_bounds a.monthNumber
    rw [a.daysInMonth_eq] at hday
    omega
  have hnext := daysBefore_succ a.monthNumber
  rw [Date.addDays_ok_iff, a.dayNumber_eq_daysBefore, b.dayNumber_eq_daysBefore]
  constructor
  · intro hb
    have hday := b.day_pos
    have hlater : a.monthNumber < b.monthNumber := by
      have hlt : a < b := by
        apply Date.lt_of_dayNumber
        rw [a.dayNumber_eq_daysBefore, b.dayNumber_eq_daysBefore]
        omega
      have hlongest := b.day_le_longest
      rcases Date.le_iff_month.mp hlt.le with hlater | ⟨hsame, hle⟩
      · exact hlater
      · rw [hsame] at hb
        omega
    -- a second month in between would be too long
    obtain ⟨k, hk⟩ : ∃ k : ℕ, b.monthNumber = a.monthNumber + 1 + k :=
      ⟨(b.monthNumber - a.monthNumber - 1).toNat, by omega⟩
    have hspan := daysBefore_add (a.monthNumber + 1) k
    rw [← hk] at hspan
    have hzero : k = 0 := by omega
    subst hzero
    rw [show b.monthNumber = a.monthNumber + 1 by omega] at hb
    omega
  · rintro ⟨hday, hmonth⟩
    rw [hday, hmonth]
    omega

theorem merges_iff : Merges r a b ↔ Collides r a b := by
  have hyear : b.monthNumber = a.monthNumber ↔ a.year = b.year ∧ a.month = b.month := by
    have := a.month_pos
    have := a.month_le
    have := b.month_pos
    have := b.month_le
    unfold Date.monthNumber
    omega
  have hlongest := r.day_le_longest
  unfold Merges Collides Date.EndMonth
  constructor
  · rintro (⟨hr, ha, hb⟩ | ⟨hr, ha, hb, hmonth⟩)
    · exact .inl ⟨hr, ha, (addDays_one_iff ha).mpr hb⟩
    · exact .inr ⟨by omega, ha, hb, hyear.mp hmonth⟩
  · rintro (⟨hr, ha, hb⟩ | ⟨hr, ha, hb, hmonth⟩)
    · exact .inl ⟨hr, ha, (addDays_one_iff ha).mp hb⟩
    · exact .inr ⟨by omega, ha, hb, hyear.mpr hmonth⟩

theorem collides_self_iff : Collides a a b ↔ a.EndMonth b := by
  unfold Collides Date.EndMonth
  omega

/-! ## Times and accruals -/

theorem days_lt_iff (h : a < b) : dc.days r a < dc.days r b ↔ ¬(dc = .thirty360 ∧ Collides r a b) := by
  have hle := dc.days_le_days r h.le
  rw [← merges_iff, ← days_eq_iff h]
  omega

theorem yearFraction_lt_iff (hr : r ≤ a) (h : a < b) :
    (dc.yearFraction r a : Float) < dc.yearFraction r b ↔ ¬(dc = .thirty360 ∧ Collides r a b) := by
  have hnonneg : 0 ≤ dc.days r a := by
    rw [← dc.days_self r]
    exact dc.days_le_days r hr
  rw [← days_lt_iff h]
  refine ⟨fun hlt => ?_, fun hlt => (yearFraction_past hnonneg hlt).1⟩
  by_contra hnot
  have hsame : dc.days r a = dc.days r b := (dc.days_le_days r h.le).antisymm (not_lt.mp hnot)
  rw [yearFraction, yearFraction, hsame] at hlt
  exact OrderedScalar.not_le_of_lt hlt (OrderedScalar.le_of_lt hlt)

end DayCount

open DayCount (Collides)

theorem accrual_error_iff {a b : Date} (h : a < b) (dc : DayCount) (e : Failure Float) :
    accrual dc a b = .error e ↔ (dc = .thirty360 ∧ a.EndMonth b) ∧ e = .accrualZero a b dc := by
  have hpositive : 0.0 < (dc.yearFraction a b : Float) ↔ ¬(dc = .thirty360 ∧ a.EndMonth b) := by
    rw [← DayCount.collides_self_iff, ← DayCount.yearFraction_lt_iff le_rfl h,
      DayCount.yearFraction_zero (dc.days_self a)]
  unfold accrual
  by_cases hlost : dc = .thirty360 ∧ a.EndMonth b
  · rw [dif_pos h, dif_neg (hpositive.not.mpr (not_not.mpr hlost))]
    simp [hlost, eq_comm]
  · rw [dif_pos h, dif_pos (hpositive.mpr hlost)]
    simp [hlost]

/-! ## Node times -/

namespace CurveSpec

theorem stalled_some {α : Type} [Scalar α] {time : Date → α} {dates : List Date} {b : Date}
    (h : stalled? (dates.zip (dates.map time)) = some b) : ∃ a, [a, b] <:+: dates ∧ ¬time a < time b := by
  induction dates with
  | nil => cases h
  | cons a rest ih =>
    cases rest with
    | nil => cases h
    | cons c rest =>
      simp only [List.map_cons, List.zip_cons_cons, stalled?] at h ih
      split at h
      · obtain ⟨d, hbeside, hstalled⟩ := ih h
        exact ⟨d, hbeside.trans (List.suffix_cons a _).isInfix, hstalled⟩
      · cases h
        exact ⟨a, (List.prefix_append [a, b] rest).isInfix, ‹_›⟩

variable {κ : Type} {spec : CurveSpec κ Float} {reference : Date}

/-- On increasing dates from the reference date on, neighbouring times increase unless the two dates collide. -/
theorem neighbours_lt_iff {dates : List Date} (h : (reference :: dates).Pairwise (· < ·)) {a b : Date}
    (hbeside : [a, b] <:+: reference :: dates) :
    (spec.dayCount.yearFraction reference a : Float) < spec.dayCount.yearFraction reference b ↔
      ¬(spec.dayCount = .thirty360 ∧ Collides reference a b) := by
  have hle : reference ≤ a := by
    rcases List.mem_cons.mp (hbeside.subset List.mem_cons_self) with rfl | hmem
    · exact le_rfl
    · exact ((List.pairwise_cons.mp h).1 a hmem).le
  have hlt : a < b := by
    have := h.sublist hbeside.sublist
    simpa using this
  exact DayCount.yearFraction_lt_iff hle hlt

/-- A curve whose dates increase has no frame exactly when two neighbouring nodes collide, the first such ones being
reported. -/
theorem frame_collides (h : (reference :: spec.instruments.map (·.maturity)).Pairwise (· < ·)) :
    (∀ e, spec.frame reference = .error e → ∃ a b, [a, b] <:+: reference :: spec.instruments.map (·.maturity) ∧
      (spec.dayCount = .thirty360 ∧ Collides reference a b) ∧ e = .maturityNotLater b spec.dayCount) ∧
    (∀ a b, [a, b] <:+: reference :: spec.instruments.map (·.maturity) →
      spec.dayCount = .thirty360 ∧ Collides reference a b → ∃ e, spec.frame reference = .error e) := by
  constructor
  · intro e he
    unfold CurveSpec.frame at he
    simp only at he
    split at he
    · rename_i b hstalled
      cases he
      obtain ⟨a, hbeside, hnot⟩ := stalled_some hstalled
      rw [neighbours_lt_iff h hbeside, not_not] at hnot
      exact ⟨a, b, hbeside, hnot, rfl⟩
    · cases he
  · intro a b hbeside hcollides
    cases hframe : spec.frame reference with
    | error e => exact ⟨e, rfl⟩
    | ok frame =>
      obtain ⟨hdates, -, hchain⟩ := frame_lists hframe
      have hneighbours := hchain.infix (hdates ▸ hbeside)
      rw [List.isChain_pair, neighbours_lt_iff h hbeside] at hneighbours
      exact absurd hcollides hneighbours

end CurveSpec

/-- **What months of thirty days cannot tell apart.** Counted from any date in months of thirty days, the number of
days to a later date is not smaller, and it is the same exactly if the two dates collide. So the number of days from
a date to a later one is not negative, and it is zero exactly from the 30th to the 31st of a month. These are all the
cases, under any day count, in which the time between two dates is refused as zero, in which the time of a node does
not come after that of an earlier one, and in which a curve is refused because of its node times. -/
theorem thirtyDays_collide :
    (∀ r a b : Date, a < b → DayCount.thirty360.days r a ≤ DayCount.thirty360.days r b ∧
      (DayCount.thirty360.days r a = DayCount.thirty360.days r b ↔ Collides r a b)) ∧
    (∀ a b : Date, a < b → 0 ≤ DayCount.thirty360.days a b ∧
      (DayCount.thirty360.days a b = 0 ↔ a.EndMonth b)) ∧
    (∀ (dc : DayCount) (a b : Date), a < b → ∀ e : Failure Float,
      accrual dc a b = .error e ↔ (dc = .thirty360 ∧ a.EndMonth b) ∧ e = .accrualZero a b dc) ∧
    (∀ (dc : DayCount) (r a b : Date), r ≤ a → a < b →
      (¬(dc.yearFraction r a : Float) < dc.yearFraction r b ↔ dc = .thirty360 ∧ Collides r a b)) ∧
    (∀ (κ : Type) (spec : CurveSpec κ Float) (reference : Date),
      (reference :: spec.instruments.map (·.maturity)).Pairwise (· < ·) →
      (∀ e, spec.frame reference = .error e → ∃ a b, [a, b] <:+: reference :: spec.instruments.map (·.maturity) ∧
        (spec.dayCount = .thirty360 ∧ Collides reference a b) ∧ e = .maturityNotLater b spec.dayCount) ∧
      (∀ a b, [a, b] <:+: reference :: spec.instruments.map (·.maturity) →
        spec.dayCount = .thirty360 ∧ Collides reference a b → ∃ e, spec.frame reference = .error e)) := by
  have days_eq (r a b : Date) (h : a < b) :
      DayCount.thirty360.days r a = DayCount.thirty360.days r b ↔ Collides r a b := by
    rw [DayCount.days_eq_iff h, and_iff_right rfl, DayCount.merges_iff]
  refine ⟨fun r a b h => ⟨DayCount.thirty360.days_le_days r h.le, days_eq r a b h⟩, fun a b h => ?_,
    fun dc a b h e => accrual_error_iff h dc e, fun dc r a b hr h => ?_,
    fun κ spec reference h => spec.frame_collides h⟩
  · have hself := DayCount.thirty360.days_self a
    have hle := DayCount.thirty360.days_le_days a h.le
    rw [← DayCount.collides_self_iff, ← days_eq a a b h]
    omega
  · rw [DayCount.yearFraction_lt_iff hr h, not_not]

/-- A deposit that accrues interest in actual days. -/
def depositOver (start stop : Date) (ordered : start < stop) : Instrument Nat Float :=
  .deposit (.of 0)
    { start, stop, ordered
      accrual := DayCount.actual365Fixed.yearFraction start stop
      accrual_pos := by
        rw [← DayCount.yearFraction_zero (DayCount.actual365Fixed.days_self start),
          DayCount.yearFraction_lt_iff le_rfl ordered]
        exact fun hcollides => absurd hcollides.1 (by decide) }

/-- A curve in months of thirty days with one node before another. -/
def twoDeposits (reference a b : Date) (ha : reference < a) (hab : a < b) : CurveSpec Nat Float :=
  ⟨.discount, .fixed reference, [depositOver reference a ha, depositOver reference b (ha.trans hab)], .thirty360,
    .logLinear, {}, {}⟩

/-- Counted from the middle of the month, the last of January is the first of February, so that a curve with nodes
at both is refused; but it is not the 30th. Counted from the 30th it is that, and no interest accrues. -/
theorem thirtyDays_collide_january :
    let middle : Date := { year := 2024, month := 1, day := 15 }
    let a : Date := { year := 2024, month := 1, day := 30 }
    let b : Date := { year := 2024, month := 1, day := 31 }
    let c : Date := { year := 2024, month := 2, day := 1 }
    (DayCount.thirty360.days middle b = DayCount.thirty360.days middle c ∧
      ¬DayCount.thirty360.days middle a = DayCount.thirty360.days middle b) ∧
      (DayCount.thirty360.days a b = 0 ∧
        (accrual .thirty360 a b : Outcome Float _) = .error (.accrualZero a b .thirty360)) ∧
      ¬(DayCount.thirty360.yearFraction middle b : Float) < DayCount.thirty360.yearFraction middle c ∧
      ∃ e, (twoDeposits middle b c (by decide) (by decide)).frame middle = .error e := by
  intro middle a b c
  obtain ⟨counted, zero, refused, times, frames⟩ := thirtyDays_collide
  have hend : a.EndMonth b := by decide
  have hcollides : Collides middle b c := by decide
  refine ⟨⟨?_, ?_⟩, ⟨?_, ?_⟩, ?_, ?_⟩
  · exact (counted middle b c (by decide)).2.mpr hcollides
  · rw [(counted middle a b (by decide)).2]
    decide
  · exact (zero a b (by decide)).2.mpr hend
  · exact (refused .thirty360 a b (by decide) _).mpr ⟨⟨rfl, hend⟩, rfl⟩
  · exact (times .thirty360 middle b c (by decide) (by decide)).mpr ⟨rfl, hcollides⟩
  · have hordered : [middle, b, c].Pairwise (· < ·) := by decide
    obtain ⟨-, unordered⟩ := frames Nat (twoDeposits middle b c (by decide) (by decide)) middle hordered
    exact unordered b c ⟨[middle], [], rfl⟩ ⟨rfl, hcollides⟩

end RateCurves
