import RateCurves.Proofs.Calendar.Advance
import RateCurves.Proofs.Failure.Outcome
import RateCurves.Proofs.Instrument.Locality

/-!
# Schedules made from a tenor

`Schedule.multiples` goes through the multiples of a step with a bound on their number. `Rounds` says how the same
loop runs without a bound: it counts its rounds, in numbers of 32 bits, until it comes to a date that does not lie
before the maturity, or to none at all. Each round comes to a later date (`Standing.next`), so there are fewer of them
than days before the maturity and the bound is never met (`Schedule.rounds_multiples`). What such a loop collects is
read off its rounds (`Rounds.collects`): a schedule made from a tenor has all multiples of the step before its
maturity (`Schedule.ofTenor_complete`).
-/

namespace RateCurves

/-- An integer of 32 bits. -/
def Fits32 (n : ℤ) : Prop := -2147483648 ≤ n ∧ n ≤ 2147483647

/-- The loop over the multiples of a step from round `k` on, and what it gives: a round that forms no date fails, one
whose date does not lie before the maturity is the last, any other puts its date before those of the rounds behind
it. The number of the round and the multiple of the step fit in 32 bits. -/
inductive Rounds (settlement maturity : Date) (step : Period) : ℕ → Except DateError (List Date) → Prop where
  | fail {k : ℕ} {e : DateError} (round : Fits32 k) (multiple : Fits32 (step.length * k))
      (none : settlement.advanceBy (step.times k) = .error e) : Rounds settlement maturity step k (.error e)
  | stop {k : ℕ} {date : Date} (round : Fits32 k) (multiple : Fits32 (step.length * k))
      (some : settlement.advanceBy (step.times k) = .ok date) (reached : maturity ≤ date) :
      Rounds settlement maturity step k (.ok [])
  | next {k : ℕ} {date : Date} {rest : Except DateError (List Date)} (round : Fits32 k)
      (multiple : Fits32 (step.length * k)) (some : settlement.advanceBy (step.times k) = .ok date)
      (before : date < maturity) (more : Rounds settlement maturity step (k + 1) rest) :
      Rounds settlement maturity step k ((date :: ·) <$> rest)

/-- A step of a schedule: one to six of a unit. -/
structure Period.Regular (step : Period) : Prop where
  one_le : 1 ≤ step.length
  le_six : step.length ≤ 6

theorem Frequency.period?_regular {frequency : Frequency} {step : Period} (h : frequency.period? = some step) :
    step.Regular := by
  cases frequency <;> cases h <;> constructor <;> decide

variable {settlement maturity date later : Date} {step : Period} {k more : ℕ}

theorem Date.advanceBy_times_number {n : ℤ} (h : settlement.advanceBy (step.times n) = .ok date) :
    date.number step.unit = settlement.number step.unit + step.unit.size * (step.length * n) :=
  Date.advance_number h

theorem Period.Regular.times_lt (regular : step.Regular) {m n : ℤ}
    (hdate : settlement.advanceBy (step.times m) = .ok date) (hlater : settlement.advanceBy (step.times n) = .ok later)
    (h : m < n) : date < later :=
  Date.advance_lt hdate hlater (mul_lt_mul_of_pos_left h (by linarith [regular.one_le]))

/-! ## The rounds come to an end -/

/-- Where the loop stands after `k` rounds that did not end it: on a date before the maturity, `k` steps and as many
days at least behind the settlement. -/
structure Standing (settlement maturity : Date) (step : Period) (k : ℕ) (date : Date) : Prop where
  number : date.number step.unit = settlement.number step.unit + step.unit.size * (step.length * k)
  dayNumber : settlement.dayNumber + k ≤ date.dayNumber
  before : date < maturity

namespace Standing

theorem start (h : settlement < maturity) : Standing settlement maturity step 0 settlement := by
  refine ⟨?_, ?_, h⟩ <;> simp

theorem next (standing : Standing settlement maturity step k date) (regular : step.Regular)
    (hlater : settlement.advanceBy (step.times (k + 1 : ℕ)) = .ok later) (before : later < maturity) :
    Standing settlement maturity step (k + 1) later := by
  have hnumber := Date.advanceBy_times_number hlater
  have hmoves : date.number step.unit < later.number step.unit := by
    have hone : 0 < step.unit.size * step.length := mul_pos step.unit.size_pos (by linarith [regular.one_le])
    rw [standing.number, hnumber]
    push_cast
    linarith
  have hday := Date.dayNumber_lt (Date.lt_of_number hmoves)
  refine ⟨hnumber, ?_, before⟩
  have := standing.dayNumber
  push_cast
  omega

theorem lt_days (standing : Standing settlement maturity step k date) :
    k < (settlement.daysBetween maturity).toNat := by
  have hday := Date.dayNumber_lt standing.before
  have := standing.dayNumber
  unfold Date.daysBetween
  omega

end Standing

theorem Period.Regular.fits (regular : step.Regular) (h : k ≤ (settlement.daysBetween maturity).toNat) :
    Fits32 k ∧ Fits32 (step.length * k) := by
  have hk : (k : ℤ) ≤ 192000000 := by
    have := settlement.dayNumber_bounds
    have := maturity.dayNumber_bounds
    unfold Date.daysBetween at h
    omega
  have hone := regular.one_le
  have hsix := regular.le_six
  refine ⟨⟨by omega, by omega⟩, ⟨?_, ?_⟩⟩
  · nlinarith
  · nlinarith

namespace Schedule

/-- With the days before the maturity as its bound, the loop runs as it does without one. -/
theorem rounds_multiples (regular : step.Regular) (standing : Standing settlement maturity step k date)
    (hbound : k + more = (settlement.daysBetween maturity).toNat) :
    Rounds settlement maturity step (k + 1) (multiples settlement step maturity more (k + 1)) := by
  induction more generalizing k date with
  | zero =>
    have := standing.lt_days
    omega
  | succ more ih =>
    have hdays : k + 1 ≤ (settlement.daysBetween maturity).toNat := by omega
    obtain ⟨hround, hmultiple⟩ := regular.fits hdays
    unfold multiples
    cases hdate : settlement.advanceBy (step.times (k + 1 : ℕ)) with
    | error e => exact .fail hround hmultiple hdate
    | ok later =>
      show Rounds settlement maturity step (k + 1) (do
        if maturity ≤ later then return []
        let rest ← multiples settlement step maturity more (k + 1 + 1)
        return later :: rest)
      split_ifs with hreached
      · exact .stop hround hmultiple hdate hreached
      · have before := not_le.mp hreached
        rw [bind_pure_comp]
        exact .next hround hmultiple hdate before (ih (standing.next regular hdate before) (by omega))

end Schedule

/-! ## What the rounds collect -/

/-- The loop collects the dates of its rounds in their order, all before the maturity, and then comes to a date that
is not. -/
theorem Rounds.collects {result : Except DateError (List Date)} (h : Rounds settlement maturity step k result)
    {inner : List Date} (hresult : result = .ok inner) :
    (∀ (i : ℕ) (date : Date), inner[i]? = some date →
      settlement.advanceBy (step.times (k + i : ℕ)) = .ok date ∧ date < maturity) ∧
    ∃ last, settlement.advanceBy (step.times (k + inner.length : ℕ)) = .ok last ∧ maturity ≤ last := by
  induction h generalizing inner with
  | fail => cases hresult
  | @stop k last round multiple hlast reached =>
    cases hresult
    exact ⟨fun i date hdate => by simp at hdate, last, hlast, reached⟩
  | @next k first rest round multiple hfirst before more ih =>
    cases rest with
    | error e => cases hresult
    | ok rest =>
      cases hresult
      obtain ⟨hinner, last, hlast, hreached⟩ := ih rfl
      refine ⟨fun i date hdate => ?_, last, ?_, hreached⟩
      · cases i with
        | zero =>
          cases hdate
          exact ⟨hfirst, before⟩
        | succ i =>
          rw [show k + (i + 1) = k + 1 + i by omega]
          exact hinner i date hdate
      · rw [List.length_cons, show k + (rest.length + 1) = k + 1 + rest.length by omega]
        exact hlast

/-- A multiple lies before the maturity if and only if the loop has come by it. -/
theorem Rounds.before_iff {inner : List Date} (h : Rounds settlement maturity step 1 (.ok inner))
    (regular : step.Regular) (hk : 1 ≤ k) :
    (∃ date, settlement.advanceBy (step.times k) = .ok date ∧ date < maturity) ↔ k ≤ inner.length := by
  obtain ⟨hinner, last, hlast, hreached⟩ := h.collects rfl
  constructor
  · rintro ⟨date, hdate, hbefore⟩
    by_contra hbeyond
    -- a later multiple lies behind the one that ended the loop
    have : last ≤ date := by
      rcases (show 1 + inner.length ≤ k by omega).eq_or_lt with rfl | hlater
      · rw [hlast] at hdate
        cases hdate
        exact le_rfl
      · exact (regular.times_lt hlast hdate (by exact_mod_cast hlater)).le
    exact absurd (hreached.trans this) (not_le.mpr hbefore)
  · intro hcollected
    obtain ⟨i, rfl⟩ : ∃ i, k = 1 + i := ⟨k - 1, by omega⟩
    exact ⟨_, hinner i inner[i] (List.getElem?_eq_getElem (by omega))⟩

variable {α : Type}

namespace Schedule

variable {tenor : Period} {frequency : Frequency}

theorem tenorDates_eq (hmaturity : settlement.advanceBy tenor = .ok maturity) (hlater : settlement < maturity)
    (hstep : frequency.period? = some step) :
    (tenorDates settlement tenor frequency : Outcome α (List Date)) = do
      let inner ← Outcome.ofDate (multiples settlement step maturity (settlement.daysBetween maturity).toNat 1)
      return settlement :: inner ++ [maturity] := by
  have hrequire : Outcome.require (decide (settlement < maturity)) (.tenorNotPositive tenor : Failure α) = .ok () :=
    Outcome.require_ok.mpr (decide_eq_true hlater)
  unfold tenorDates
  rw [Outcome.ofDate_ok.mpr hmaturity, Outcome.ofOption_ok.mpr hstep]
  simp only [bind, Except.bind, hrequire]

theorem tenorDates_ok {dates : List Date}
    (h : (tenorDates settlement tenor frequency : Outcome α (List Date)) = .ok dates) :
    ∃ maturity step inner, settlement.advanceBy tenor = .ok maturity ∧ settlement < maturity ∧
      frequency.period? = some step ∧
      multiples settlement step maturity (settlement.daysBetween maturity).toNat 1 = .ok inner ∧
      dates = settlement :: inner ++ [maturity] := by
  obtain ⟨maturity, hmaturity, h⟩ := Outcome.bind_ok.mp h
  obtain ⟨_, hlater, h⟩ := Outcome.bind_ok.mp h
  obtain ⟨step, hstep, h⟩ := Outcome.bind_ok.mp h
  obtain ⟨inner, hinner, h⟩ := Outcome.bind_ok.mp h
  cases h
  exact ⟨maturity, step, inner, Outcome.ofDate_ok.mp hmaturity, of_decide_eq_true (Outcome.require_ok.mp hlater),
    Outcome.ofOption_ok.mp hstep, Outcome.ofDate_ok.mp hinner, rfl⟩

end Schedule

variable [Scalar α]

theorem Accrues.pairwise {start : Date} {coupons : List (Date × α)} (h : Accrues start coupons) :
    (start :: coupons.map (·.1)).Pairwise (· < ·) := by
  induction h with
  | nil start => exact List.pairwise_singleton _ _
  | @cons start date tau rest later positive accrues ih =>
    refine List.pairwise_cons.mpr ⟨?_, ih⟩
    intro d hd
    exact later.trans_le (accrues.first_le d hd)

namespace Schedule

theorem couponsFrom_dates {dayCount : DayCount} {start : Date} {dates : List Date}
    {coupons : { coupons : List (Date × α) // Accrues start coupons }}
    (h : couponsFrom dayCount start dates = .ok coupons) : coupons.1.map (·.1) = dates := by
  induction dates generalizing start with
  | nil =>
    cases h
    rfl
  | cons date rest ih =>
    obtain ⟨⟨tau, later, positive⟩, -, h⟩ := Outcome.bind_ok.mp h
    obtain ⟨⟨coupons, accrues⟩, hrest, h⟩ := Outcome.bind_ok.mp h
    cases h
    exact congrArg (date :: ·) (ih hrest)

theorem ofDates_dates {dayCount : DayCount} {dates : List Date} {s : Schedule α}
    (h : ofDates dayCount dates = .ok s) : s.dates = dates := by
  match dates, h with
  | start :: date :: rest, h =>
    obtain ⟨⟨tau, later, positive⟩, -, h⟩ := Outcome.bind_ok.mp h
    obtain ⟨⟨coupons, accrues⟩, hrest, h⟩ := Outcome.bind_ok.mp h
    cases h
    exact congrArg (fun rest => start :: date :: rest) (couponsFrom_dates hrest)

/-- **A schedule made from a tenor is complete.** Once its maturity and its step are known, the loop comes to an end
without overflow, and the schedule is made from the dates that the loop collects. Its dates increase from the
settlement to the maturity; those between are the multiples of the step, counted from the settlement, that lie before
the maturity, and the next multiple does not. -/
theorem ofTenor_complete (settlement : Date) (tenor : Period) (frequency : Frequency) (dayCount : DayCount) :
    (∀ maturity step, settlement.advanceBy tenor = .ok maturity → settlement < maturity →
      frequency.period? = some step →
      ∃ inner, Rounds settlement maturity step 1 inner ∧
        (ofTenor settlement tenor frequency dayCount : Outcome α (Schedule α)) = do
          let inner ← Outcome.ofDate inner
          ofDates dayCount (settlement :: inner ++ [maturity])) ∧
    ∀ s : Schedule α, ofTenor settlement tenor frequency dayCount = .ok s →
      ∃ maturity step inner, settlement.advanceBy tenor = .ok maturity ∧ frequency.period? = some step ∧
        s.dates = settlement :: inner ++ [maturity] ∧ s.dates.Pairwise (· < ·) ∧
        (∀ (k : ℕ) (date : Date), inner[k]? = some date → settlement.advanceBy (step.times (k + 1 : ℕ)) = .ok date) ∧
        (∀ k : ℕ, 1 ≤ k →
          ((∃ date, settlement.advanceBy (step.times k) = .ok date ∧ date < maturity) ↔ k ≤ inner.length)) ∧
        ∃ date, settlement.advanceBy (step.times (inner.length + 1 : ℕ)) = .ok date ∧ maturity ≤ date := by
  refine ⟨fun maturity step hmaturity hlater hstep => ?_, fun s hs => ?_⟩
  · have hrounds := rounds_multiples (Frequency.period?_regular hstep) (Standing.start hlater) (Nat.zero_add _)
    refine ⟨_, hrounds, ?_⟩
    unfold ofTenor
    rw [tenorDates_eq hmaturity hlater hstep]
    simp only [bind_assoc, pure_bind, Nat.zero_add]
  · obtain ⟨dates, hdates, hs⟩ := Outcome.bind_ok.mp hs
    obtain ⟨maturity, step, inner, hmaturity, hlater, hstep, hinner, rfl⟩ := tenorDates_ok hdates
    have regular := Frequency.period?_regular hstep
    have hrounds := rounds_multiples regular (Standing.start hlater) (Nat.zero_add _)
    rw [Nat.zero_add, hinner] at hrounds
    obtain ⟨hcollected, last, hlast, hreached⟩ := hrounds.collects rfl
    refine ⟨maturity, step, inner, hmaturity, hstep, ofDates_dates hs, s.accrues.pairwise, ?_,
      fun k hk => hrounds.before_iff regular hk, last, ?_, hreached⟩
    · intro k date hdate
      rw [Nat.add_comm]
      exact (hcollected k date hdate).1
    · rw [Nat.add_comm]
      exact hlast

/-- Quarters from the thirtieth of November: the day that is missing in February is back in May. -/
theorem ofTenor_complete_quarters :
    ∃ s : Schedule Float, ofTenor { year := 2027, month := 11, day := 30 } (.years 1) .quarterly .thirty360 = .ok s ∧
      s.dates = [{ year := 2027, month := 11, day := 30 }, { year := 2028, month := 2, day := 29 },
        { year := 2028, month := 5, day := 30 }, { year := 2028, month := 8, day := 30 },
        { year := 2028, month := 11, day := 30 }] ∧
      s.dates.Pairwise (· < ·) := by
  have hdates : (ofTenor { year := 2027, month := 11, day := 30 } (.years 1) .quarterly .thirty360 :
      Outcome Float (Schedule Float)).toOption.map (·.dates) =
        some [{ year := 2027, month := 11, day := 30 }, { year := 2028, month := 2, day := 29 },
          { year := 2028, month := 5, day := 30 }, { year := 2028, month := 8, day := 30 },
          { year := 2028, month := 11, day := 30 }] := by
    decide +kernel
  cases hs : (ofTenor { year := 2027, month := 11, day := 30 } (.years 1) .quarterly .thirty360 :
      Outcome Float (Schedule Float)) with
  | error e =>
    rw [hs] at hdates
    cases hdates
  | ok s =>
    rw [hs] at hdates
    obtain ⟨_, _, _, _, _, _, hincreasing, _⟩ := (ofTenor_complete _ _ _ _).2 s hs
    exact ⟨s, rfl, Option.some.inj hdates, hincreasing⟩

end Schedule

end RateCurves
