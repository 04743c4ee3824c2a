import RateCurves.Curve.Kind
import RateCurves.Curve.View

/-!
# Curves through nodes

A curve given by values at dates. The first date is the reference date, the last one the end of the
curve.
-/

namespace RateCurves

open Scalar

variable {α : Type} [Scalar α]

/-- Node dates with their times and values, and the interpolation of the values over the times. -/
structure NodeCurve (α : Type) [Scalar α] where
  kind : CurveKind
  dayCount : DayCount
  dates : List Date
  times : List α
  data : List α
  interpolation : Interpolation α

namespace NodeCurve

/-- The curve with the given nodes, if the scheme accepts them. -/
def fit (kind : CurveKind) (dayCount : DayCount) (scheme : Scheme) (dates : List Date)
    (times data : List α) : Outcome α (NodeCurve α) := do
  let interpolation ← scheme.fit times data
  return { kind, dayCount, dates, times, data, interpolation }

/-- The first date that is not after the one before it, behind that one. -/
def disorder? : List Date → Option (Date × Date)
  | a :: b :: rest => if a < b then disorder? (b :: rest) else some (a, b)
  | _ => none

/-- At least two dates, as many values, and the dates in strict order. -/
def checkNodes (dates : List Date) (values : List α) : Outcome α Unit := do
  Outcome.require (2 ≤ dates.length) (.tooFewNodes dates.length)
  Outcome.require (dates.length = values.length) (.nodeCounts dates.length values.length)
  match disorder? dates with
  | some (earlier, later) => throw (.nodeDatesNotIncreasing earlier later)
  | none => return ()

/-- The first discount factor is one, and all are positive. -/
def checkDiscounts (dates : List Date) (values : List α) : Outcome α Unit := do
  let first := values.headD 0.0
  Outcome.require (first == 1.0) (.firstDiscount first)
  match (dates.zip values).find? fun node => !(0.0 < node.2) with
  | some (date, value) => throw (.discountNotPositive value date)
  | none => return ()

def timesOf (dayCount : DayCount) (dates : List Date) : List α :=
  match dates with
  | [] => []
  | reference :: _ => dates.map (dayCount.yearFraction reference)

def ofValues (kind : CurveKind) (dayCount : DayCount) (scheme : Scheme) (dates : List Date)
    (values : List α) : Outcome α (NodeCurve α) := do
  checkNodes dates values
  if kind = .discount then checkDiscounts dates values
  fit kind dayCount scheme dates (timesOf dayCount dates) values

def nodes (c : NodeCurve α) : List (Date × α) := c.dates.zip c.data

def view (c : NodeCurve α) (extrapolates : Bool) : CurveView α where
  reference := .ok (c.dates.headD .first)
  dayCount := c.dayCount
  lastDate := c.dates.getLastD .first
  extrapolates
  discountAt t := .ok (c.kind.discountAt c.interpolation t)
  zeroAt t := .ok (c.kind.zeroAt c.interpolation t)
  forwardAt t := .ok (c.kind.forwardAt c.interpolation t)

end NodeCurve

end RateCurves
