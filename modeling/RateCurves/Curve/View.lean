import RateCurves.InterestRate.Basic
import RateCurves.Scalar.Closeness

/-!
# Yield curves

What every yield curve offers, whatever it is made from: a reference date, a day count, the last
date it covers, and its discount factor, zero yield and instantaneous forward as functions of time.
All queries are stated once on these. Times are years from the reference date under the day count
of the curve, and rates are continuously compounded unless a convention is given.
-/

namespace RateCurves

open Scalar

variable {α : Type} [Scalar α]

/-- A curve as its queries see it. The three functions of time answer without a range check. -/
structure CurveView (α : Type) where
  reference : Outcome α Date
  dayCount : DayCount
  lastDate : Date
  extrapolates : Bool
  discountAt : α → Outcome α α
  zeroAt : α → Outcome α α
  forwardAt : α → Outcome α α

namespace CurveView

/-- The time over which a rate at a single time is taken. -/
def instant : α := 1e-4

/-- The times `instant` apart around `t`, kept from going below zero. -/
def around (t : α) : α × α :=
  let start := max (t - instant / 2.0) 0.0
  (start, start + instant)

/-- The forward over the instant around `t`, from discount factors alone. -/
def forwardFromDiscounts (discountAt : α → Outcome α α) (t : α) : Outcome α α := do
  let (start, stop) := around t
  let before ← discountAt start
  let after ← discountAt stop
  return (ln before - ln after) / instant

/-- The zero yield from discount factors alone; at time zero it is the forward. -/
def zeroFromDiscounts (discountAt : α → Outcome α α) (t : α) : Outcome α α := do
  if t == 0.0 then forwardFromDiscounts discountAt 0.0
  else
    let factor ← discountAt t
    return -(ln factor) / t

/-! ## Times and ranges -/

def timeOf (c : CurveView α) (date : Date) : Outcome α α := do
  let reference ← c.reference
  return c.dayCount.yearFraction reference date

def lastTime (c : CurveView α) : Outcome α α := c.timeOf c.lastDate

/-- Refuses times before the reference date and, unless extrapolation is allowed, times past the
end of the curve. -/
def checkTime (c : CurveView α) (t : α) (extrapolate : Bool) : Outcome α Unit := do
  if t < 0.0 then throw (.timeBeforeReference t)
  if extrapolate || c.extrapolates then return ()
  let last ← c.lastTime
  if last < t && !closeEnough t last then throw (.timePastEnd t last)

/-- Refuses dates before the reference date and, unless extrapolation is allowed, dates past the
last one. -/
def checkDate (c : CurveView α) (date : Date) (extrapolate : Bool) : Outcome α Unit := do
  let reference ← c.reference
  if date < reference then throw (.dateBeforeReference date reference)
  if !extrapolate && !c.extrapolates && decide (c.lastDate < date) then
    throw (.datePastEnd date c.lastDate)

/-! ## Discount factors -/

def discount (c : CurveView α) (t : α) (extrapolate : Bool) : Outcome α α := do
  c.checkTime t extrapolate
  c.discountAt t

def discountOn (c : CurveView α) (date : Date) : Outcome α α := do
  let t ← c.timeOf date
  c.discount t false

/-! ## Zero rates -/

def zeroRate (c : CurveView α) (t : α) (extrapolate : Bool) : Outcome α α := do
  c.checkTime t extrapolate
  c.zeroAt t

/-- The rate from now to time `t` under a convention; at time zero, over the first instant. -/
def zeroRateUnder (c : CurveView α) (t : α) (compounding : Compounding) (frequency : Frequency) :
    Outcome α (InterestRate α) := do
  c.checkTime t false
  let t := if t == 0.0 then instant else t
  let factor ← c.discountAt t
  InterestRate.implied (1.0 / factor) c.dayCount compounding frequency t

/-- The rate from now to a date under a convention and a day count; on the reference date, over the
first instant. -/
def zeroRateOn (c : CurveView α) (date : Date) (dayCount : DayCount) (compounding : Compounding)
    (frequency : Frequency) : Outcome α (InterestRate α) := do
  let reference ← c.reference
  if date = reference then
    let factor ← c.discount instant false
    InterestRate.implied (1.0 / factor) dayCount compounding frequency instant
  else
    let factor ← c.discountOn date
    InterestRate.implied (1.0 / factor) dayCount compounding frequency
      (dayCount.yearFraction reference date)

/-! ## Forward rates -/

/-- The rate from `start` to `stop`, instantaneous if they are equal. -/
def forwardRate (c : CurveView α) (start stop : α) (extrapolate : Bool) : Outcome α α := do
  Outcome.require (start ≤ stop) (.forwardTimesReversed start stop)
  c.checkTime start extrapolate
  c.checkTime stop extrapolate
  if start == stop then c.forwardAt start
  else
    let before ← c.discountAt start
    let after ← c.discountAt stop
    return (ln before - ln after) / (stop - start)

/-- The rate from `start` to `stop` under a convention; if they are equal, over the instant around
them. -/
def forwardRateUnder (c : CurveView α) (start stop : α) (compounding : Compounding)
    (frequency : Frequency) : Outcome α (InterestRate α) := do
  Outcome.require (start ≤ stop) (.forwardTimesReversed start stop)
  let (start, stop) := if start == stop then around start else (start, stop)
  c.checkTime start false
  c.checkTime stop false
  let before ← c.discountAt start
  let after ← c.discountAt stop
  InterestRate.implied (before / after) c.dayCount compounding frequency (stop - start)

/-- The rate between two dates under a convention and a day count; if they are equal, over the
instant around them. -/
def forwardRateBetween (c : CurveView α) (start stop : Date) (dayCount : DayCount)
    (compounding : Compounding) (frequency : Frequency) : Outcome α (InterestRate α) := do
  Outcome.require (start ≤ stop) (.forwardDatesReversed start stop)
  if start = stop then
    let t ← c.timeOf start
    let (t₁, t₂) := around t
    c.checkTime t₂ false
    let before ← c.discountAt t₁
    let after ← c.discountAt t₂
    InterestRate.implied (before / after) dayCount compounding frequency instant
  else
    let before ← c.discountOn start
    let after ← c.discountOn stop
    InterestRate.implied (before / after) dayCount compounding frequency
      (dayCount.yearFraction start stop)

/-! ## Re-anchored curves -/

/-- The curve seen from a later date: discount factors relative to the one at that date. -/
def implied (base : CurveView α) (reference : Date) (extrapolates : Bool) : CurveView α :=
  let discountAt (t : α) : Outcome α α := do
    let offset ← base.timeOf reference
    let whole ← base.discount (offset + t) true
    let head ← base.discount offset true
    return whole / head
  { reference := .ok reference
    dayCount := base.dayCount
    lastDate := base.lastDate
    extrapolates
    discountAt
    zeroAt := zeroFromDiscounts discountAt
    forwardAt := forwardFromDiscounts discountAt }

end CurveView

end RateCurves
