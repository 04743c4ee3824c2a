import RateCurves.Calendar.Period
import RateCurves.Calendar.DayCount

/-!
# Failures

Why an operation gave no answer. Each constructor is one cause and carries the values that its
wording names; `Failure.kind` sorts the causes into five kinds.
-/

namespace RateCurves

inductive FailureKind where
  | configuration
  | range
  | convergence
  | date
  | runtime
  deriving DecidableEq

inductive Failure (α : Type) where
  /-- A cause outside this list, in its own words. -/
  | other (kind : FailureKind) (text : String)
  /-- A date could not be formed. -/
  | date (error : DateError)
  -- rates
  | negativeTime (t : α)
  | factorNotPositive (factor rate t : α)
  | growthNotPositive (factor : α)
  | growthTimeNegative (t : α)
  | growthTimeNotPositive (t : α)
  | irregularFrequency (frequency : Frequency)
  | noPeriod (frequency : Frequency)
  -- nodes of an interpolation
  | sizesDiffer (xs ys : Nat)
  | tooFewPoints (required given : Nat)
  | abscissaNotFinite (xs : List α)
  | abscissaeNotIncreasing (index : Nat) (left right : α)
  | ordinateNotPositive (ys : List α)
  | gridSize (zs xs ys : Nat)
  | outsideNodes (low high x : α)
  | outsideGrid (xLow xHigh yLow yHigh x y : α)
  -- root search
  | accuracyNotPositive (accuracy : α)
  | bracketReversed (low high : α)
  | guessTooLow (guess low : α)
  | guessTooHigh (guess high : α)
  | notBracketed (low high atLow atHigh : α)
  | budgetExhausted (budget : Nat)
  | notANumberAt (x : α)
  -- curves
  | timeBeforeReference (t : α)
  | timePastEnd (t last : α)
  | dateBeforeReference (date reference : Date)
  | datePastEnd (date last : Date)
  | forwardTimesReversed (start stop : α)
  | forwardDatesReversed (start stop : Date)
  | tooFewNodes (given : Nat)
  | nodeCounts (dates values : Nat)
  | nodeDatesNotIncreasing (earlier later : Date)
  | firstDiscount (value : α)
  | discountNotPositive (value : α) (date : Date)
  | flatRateMissing
  | evaluationDateMissing
  -- instruments
  | accrualReversed (start stop : Date)
  | accrualZero (start stop : Date) (dayCount : DayCount)
  | monthsReversed (start stop : Int)
  | scheduleTooShort (given : Nat)
  | tenorNotPositive (tenor : Period)
  | quoteMissing (maturity : Date)
  | convexityMissing (maturity : Date)
  | annuityZero (maturity : Date)
  -- bootstrap
  | noIterations
  | noInstruments
  | maturityTwice (maturity : Date)
  | maturityTooEarly (maturity reference : Date)
  | maturityNotLater (maturity : Date) (dayCount : DayCount)
  | segmentUnsolved (maturity : Date) (segment iteration : Nat) (cause : Failure α)
  | notConverged (iterations : Nat)
  | notBootstrapped

namespace Failure

variable {α : Type}

def kind : Failure α → FailureKind
  | .other kind _ => kind
  | .date _ => .date
  | .outsideNodes .. | .outsideGrid .. | .timeBeforeReference .. | .timePastEnd ..
  | .dateBeforeReference .. | .datePastEnd .. => .range
  | .notBracketed .. | .budgetExhausted .. | .notANumberAt .. | .segmentUnsolved ..
  | .notConverged .. => .convergence
  | .annuityZero .. | .notBootstrapped | .evaluationDateMissing => .runtime
  | _ => .configuration

end Failure

/-- The outcome of an operation that may fail. -/
abbrev Outcome (α β : Type) := Except (Failure α) β

namespace Outcome

variable {α β : Type}

/-- Goes on if `condition` holds and fails with `cause` otherwise. -/
def require (condition : Bool) (cause : Failure α) : Outcome α Unit :=
  if condition then .ok () else .error cause

/-- The value of an option, or the given cause. -/
def ofOption (cause : Failure α) : Option β → Outcome α β
  | some value => .ok value
  | none => .error cause

def ofDate : Except DateError β → Outcome α β
  | .ok value => .ok value
  | .error e => .error (.date e)

end Outcome

end RateCurves
