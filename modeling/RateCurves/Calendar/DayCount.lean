import RateCurves.Calendar.Date
import RateCurves.Scalar.Basic

/-!
# Day counts

A day count turns two dates into a number of days and that into a fraction of a year.
-/

namespace RateCurves

inductive DayCount where
  | actual365Fixed
  | actual360
  | thirty360
  deriving DecidableEq

namespace DayCount

def name : DayCount → String
  | .actual365Fixed => "Actual/365 (Fixed)"
  | .actual360 => "Actual/360"
  | .thirty360 => "30/360 (Bond Basis)"

/-- The days between two dates when every month has thirty. An end on the 31st counts as the first
of the next month if the start is before the 30th, and as the 30th otherwise; a start on the 31st
counts as the 30th. -/
def thirtyDayMonths (a b : Date) : Int :=
  let toNextMonth : Bool := b.day = 31 ∧ a.day < 30
  let startDay : Int := if a.day = 31 then 30 else a.day
  let endDay : Int := if toNextMonth then 1 else if b.day = 31 then 30 else b.day
  let endMonth : Int := if toNextMonth then b.month + 1 else b.month
  360 * (b.year - a.year) + 30 * (endMonth - a.month) + (endDay - startDay)

def days : DayCount → Date → Date → Int
  | .actual365Fixed, a, b => a.daysBetween b
  | .actual360, a, b => a.daysBetween b
  | .thirty360, a, b => thirtyDayMonths a b

/-- The days that make a year. -/
def yearLength : DayCount → Int
  | .actual365Fixed => 365
  | .actual360 => 360
  | .thirty360 => 360

def yearFraction {α : Type} [Scalar α] (dc : DayCount) (a b : Date) : α :=
  Scalar.ofInt (dc.days a b) / Scalar.ofInt dc.yearLength

end DayCount

end RateCurves
