import RateCurves.Instrument.Loan

/-!
# Payment schedules

The fixed leg of a swap: dates on which a rate is paid on the time since the date before. A schedule
is given by its dates, or made from a tenor in steps of a frequency, the last step cut short at the
end of the tenor. `Schedule.parRate` is the rate that a curve implies.
-/

namespace RateCurves

variable {α : Type} [Scalar α]

/-- Payment dates with the times they accrue: each date lies behind the one before it, the first one
behind the given date, and every time is positive. -/
inductive Accrues : Date → List (Date × α) → Prop where
  | nil (start : Date) : Accrues start []
  | cons {start date : Date} {tau : α} {rest : List (Date × α)} (later : start < date)
      (positive : 0.0 < tau) (accrues : Accrues date rest) : Accrues start ((date, tau) :: rest)

/-- The fixed leg of a swap: its first date and the payment dates with the times they accrue. -/
structure Schedule (α : Type) [Scalar α] where
  start : Date
  coupons : List (Date × α)
  dayCount : DayCount
  accrues : Accrues start coupons
  nonempty : coupons ≠ []

namespace Schedule

def dates (s : Schedule α) : List Date := s.start :: s.coupons.map (·.1)

def stop (s : Schedule α) : Date := (s.coupons.map (·.1)).getLastD s.start

def couponsFrom (dayCount : DayCount) (start : Date) :
    List Date → Outcome α { coupons : List (Date × α) // Accrues start coupons }
  | [] => .ok ⟨[], .nil start⟩
  | date :: rest => do
    let ⟨tau, later, positive⟩ ← RateCurves.accrual dayCount start date
    let ⟨coupons, accrues⟩ ← couponsFrom dayCount date rest
    return ⟨(date, tau) :: coupons, .cons later positive accrues⟩

/-- The schedule with the given dates, at least two. -/
def ofDates (dayCount : DayCount) : List Date → Outcome α (Schedule α)
  | start :: date :: rest => do
    let ⟨tau, later, positive⟩ ← RateCurves.accrual dayCount start date
    let ⟨coupons, accrues⟩ ← couponsFrom dayCount date rest
    return { start, coupons := (date, tau) :: coupons, dayCount,
             accrues := .cons later positive accrues, nonempty := List.cons_ne_nil _ _ }
  | dates => .error (.scheduleTooShort dates.length)

/-- The dates `k`, `k + 1`, … steps after `settlement` that lie before `maturity`, at most `more` of
them. -/
def multiples (settlement : Date) (step : Period) (maturity : Date) :
    (more k : Nat) → Except DateError (List Date)
  | 0, _ => .ok []
  | more + 1, k => do
    let date ← settlement.advanceBy (step.times k)
    if maturity ≤ date then return []
    let rest ← multiples settlement step maturity more (k + 1)
    return date :: rest

/-- The dates from `settlement` to `settlement` plus `tenor` in steps of the frequency, each step
counted from `settlement`; a step is a day at least, so there are no more of them than days. -/
def tenorDates (settlement : Date) (tenor : Period) (frequency : Frequency) :
    Outcome α (List Date) := do
  let maturity ← Outcome.ofDate (settlement.advanceBy tenor)
  Outcome.require (settlement < maturity) (.tenorNotPositive tenor)
  let step ← Outcome.ofOption (.noPeriod frequency) frequency.period?
  let days := (settlement.daysBetween maturity).toNat
  let inner ← Outcome.ofDate (multiples settlement step maturity days 1)
  return settlement :: inner ++ [maturity]

def ofTenor (settlement : Date) (tenor : Period) (frequency : Frequency) (dayCount : DayCount) :
    Outcome α (Schedule α) := do
  let dates ← tenorDates settlement tenor frequency
  ofDates dayCount dates

/-- The value of one unit of rate paid on the schedule. -/
def annuity (s : Schedule α) (curve : CurveView α) : Outcome α α :=
  s.coupons.foldlM (fun sum (date, tau) => do
    let factor ← curve.discountOn date
    return sum + tau * factor) 0.0

/-- The rate that makes the fixed leg worth the floating one. -/
def parRate (s : Schedule α) (curve : CurveView α) : Outcome α α := do
  let annuity ← s.annuity curve
  if annuity == 0.0 then throw (.annuityZero s.stop)
  let start ← curve.discountOn s.start
  let stop ← curve.discountOn s.stop
  return (start - stop) / annuity

end Schedule

end RateCurves
