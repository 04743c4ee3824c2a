import RateCurves.Failure.Basic

/-!
# Interest rates

A rate together with the conventions that say how interest is added. `compoundFactor` is the growth
of one unit over a time, and `implied` the rate whose growth over a time is given.
-/

namespace RateCurves

inductive Compounding where
  | simple
  | compounded
  | continuous
  | simpleThenCompounded
  | compoundedThenSimple
  deriving DecidableEq

namespace Compounding

/-- The conventions that need a regular frequency. -/
def usesFrequency : Compounding → Bool
  | .simple | .continuous => false
  | _ => true

def name : Compounding → String
  | .simple => "Simple"
  | .compounded => "Compounded"
  | .continuous => "Continuous"
  | .simpleThenCompounded => "SimpleThenCompounded"
  | .compoundedThenSimple => "CompoundedThenSimple"

end Compounding

structure InterestRate (α : Type) where
  rate : α
  dayCount : DayCount
  compounding : Compounding
  frequency : Frequency

namespace InterestRate

open Scalar

variable {α : Type} [Scalar α]

/-- The number of periods a year, which only the regular frequencies have. -/
def periods (frequency : Frequency) : Outcome α α :=
  match frequency.perYear? with
  | some n => .ok (ofNat n)
  | none => .error (.irregularFrequency frequency)

/-- A rate under the given conventions; those that compound need a regular frequency. -/
def make (rate : α) (dayCount : DayCount) (compounding : Compounding) (frequency : Frequency) :
    Outcome α (InterestRate α) := do
  if compounding.usesFrequency then
    let _ ← periods (α := α) frequency
  return ⟨rate, dayCount, compounding, frequency⟩

/-! ## Growth -/

def simpleGrowth (r t : α) : α := 1.0 + r * t

/-- Growth with interest added `f` times a year. -/
def compoundedGrowth (r f t : α) : α := pow (1.0 + r / f) (f * t)

/-- The growth over a time under the rate's convention. The mixed conventions change from one rule
to the other at the end of the first period. -/
def growth (ir : InterestRate α) (t : α) : Outcome α α := do
  let r := ir.rate
  match ir.compounding with
  | .simple => return simpleGrowth r t
  | .continuous => return exp (r * t)
  | .compounded =>
    let f ← periods ir.frequency
    return compoundedGrowth r f t
  | .simpleThenCompounded =>
    let f ← periods ir.frequency
    return if t ≤ 1.0 / f then simpleGrowth r t else compoundedGrowth r f t
  | .compoundedThenSimple =>
    let f ← periods ir.frequency
    return if t ≤ 1.0 / f then compoundedGrowth r f t else simpleGrowth r t

/-- The growth of one unit over a time that is not negative, refused unless positive. -/
def compoundFactor (ir : InterestRate α) (t : α) : Outcome α α := do
  Outcome.require (0.0 ≤ t) (.negativeTime t)
  let factor ← ir.growth t
  Outcome.require (0.0 < factor) (.factorNotPositive factor ir.rate t)
  return factor

/-- The growth between two dates, by the rate's day count. -/
def compoundFactorBetween (ir : InterestRate α) (a b : Date) : Outcome α α :=
  ir.compoundFactor (ir.dayCount.yearFraction a b)

def discountFactor (ir : InterestRate α) (t : α) : Outcome α α := do
  let factor ← ir.compoundFactor t
  return 1.0 / factor

/-! ## Rates from growth -/

def simpleRate (factor t : α) : α := (factor - 1.0) / t

def compoundedRate (factor f t : α) : α := (pow factor (1.0 / (f * t)) - 1.0) * f

/-- The rate whose growth over `t` is `factor`, for a factor other than one. -/
def rateFor (factor : α) (compounding : Compounding) (frequency : Frequency) (t : α) :
    Outcome α α := do
  match compounding with
  | .simple => return simpleRate factor t
  | .continuous => return ln factor / t
  | .compounded =>
    let f ← periods frequency
    return compoundedRate factor f t
  | .simpleThenCompounded =>
    let f ← periods frequency
    return if t ≤ 1.0 / f then simpleRate factor t else compoundedRate factor f t
  | .compoundedThenSimple =>
    let f ← periods frequency
    return if t ≤ 1.0 / f then compoundedRate factor f t else simpleRate factor t

/-- The rate whose growth over `t` is `factor`. A factor of one belongs to the rate zero over any
time; every other factor needs a positive time. -/
def implied (factor : α) (dayCount : DayCount) (compounding : Compounding) (frequency : Frequency)
    (t : α) : Outcome α (InterestRate α) := do
  Outcome.require (0.0 < factor) (.growthNotPositive factor)
  if factor == 1.0 then
    Outcome.require (0.0 ≤ t) (.growthTimeNegative t)
    make 0.0 dayCount compounding frequency
  else
    Outcome.require (0.0 < t) (.growthTimeNotPositive t)
    let rate ← rateFor factor compounding frequency t
    make rate dayCount compounding frequency

/-- The rate under other conventions with the same growth over `t`. -/
def equivalent (ir : InterestRate α) (compounding : Compounding) (frequency : Frequency) (t : α) :
    Outcome α (InterestRate α) := do
  let factor ← ir.compoundFactor t
  implied factor ir.dayCount compounding frequency t

end InterestRate

end RateCurves
