import RateCurves.Curve.View

/-!
# Loans

Money lent from one date to another at simple interest. `Loan.forward` is the rate of a loan that a
curve implies.
-/

namespace RateCurves

variable {α : Type} [Scalar α]

/-- The time between two dates, refused unless the second is later and the time positive. -/
def accrual (dayCount : DayCount) (start stop : Date) :
    Outcome α { tau : α // start < stop ∧ 0.0 < tau } :=
  let tau : α := dayCount.yearFraction start stop
  if ordered : start < stop then
    if positive : 0.0 < tau then .ok ⟨tau, ordered, positive⟩
    else .error (.accrualZero start stop dayCount)
  else .error (.accrualReversed start stop)

/-- A loan from one date to another with the time it accrues interest. -/
structure Loan (α : Type) [Scalar α] where
  start : Date
  stop : Date
  accrual : α
  ordered : start < stop
  accrual_pos : 0.0 < accrual

namespace Loan

def between (dayCount : DayCount) (start stop : Date) : Outcome α (Loan α) := do
  let ⟨tau, ordered, positive⟩ ← RateCurves.accrual dayCount start stop
  return ⟨start, stop, tau, ordered, positive⟩

def forward (loan : Loan α) (curve : CurveView α) : Outcome α α := do
  let before ← curve.discountOn loan.start
  let after ← curve.discountOn loan.stop
  return (before / after - 1.0) / loan.accrual

end Loan

end RateCurves
