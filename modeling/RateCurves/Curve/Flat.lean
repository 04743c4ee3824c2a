import RateCurves.Curve.View
import RateCurves.Handle

/-!
# Flat curves

A curve with one rate for all times. The rate is read from a quote at every query; its growth over
one year fixes the continuous rate of the curve.
-/

namespace RateCurves

open Scalar

variable {κ α : Type} [Scalar α]

/-- A reference date and a quoted rate with its conventions. -/
structure FlatCurve (κ : Type) where
  reference : Date
  quote : Handle κ
  dayCount : DayCount
  compounding : Compounding
  frequency : Frequency

namespace FlatCurve

/-- A flat curve under the given conventions; those that compound need a regular frequency. -/
def make (reference : Date) (quote : Handle κ) (dayCount : DayCount) (compounding : Compounding)
    (frequency : Frequency) : Outcome α (FlatCurve κ) := do
  let _ ← InterestRate.make (0.0 : α) dayCount compounding frequency
  return { reference, quote, dayCount, compounding, frequency }

def continuous (reference : Date) (quote : Handle κ) (dayCount : DayCount) : FlatCurve κ :=
  { reference, quote, dayCount, compounding := .continuous, frequency := .noFrequency }

def rate (c : FlatCurve κ) (read : κ → Option α) : Outcome α (InterestRate α) := do
  let value ← Outcome.ofOption .flatRateMissing (c.quote.target?.bind read)
  InterestRate.make value c.dayCount c.compounding c.frequency

/-- The continuous rate with the same growth over one year. -/
def continuousRate (c : FlatCurve κ) (read : κ → Option α) : Outcome α α := do
  let ir ← c.rate read
  let factor ← ir.compoundFactor 1.0
  return ln factor

def view (c : FlatCurve κ) (read : κ → Option α) (extrapolates : Bool) : CurveView α where
  reference := .ok c.reference
  dayCount := c.dayCount
  lastDate := .last
  extrapolates
  discountAt t := do
    let r ← c.continuousRate read
    return exp (-r * t)
  zeroAt _ := c.continuousRate read
  forwardAt _ := c.continuousRate read

end FlatCurve

end RateCurves
