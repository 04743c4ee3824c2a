import RateCurves.Handle
import RateCurves.Instrument.Schedule

/-!
# Instruments

What the market quotes: deposits, forward rate agreements, futures and swaps. Each instrument knows
its dates and the quote that goes with it, and `impliedQuote` computes the same quantity off a
curve. Dates are taken as given, without holidays.
-/

namespace RateCurves

variable {κ α : Type} [Scalar α]

/-- An instrument with handles to its quotes. -/
inductive Instrument (κ α : Type) [Scalar α] where
  | deposit (rate : Handle κ) (loan : Loan α)
  | fra (rate : Handle κ) (loan : Loan α)
  | futures (price convexity : Handle κ) (loan : Loan α)
  | swap (rate : Handle κ) (schedule : Schedule α)

namespace Instrument

/-! ## Making instruments -/

def depositBetween (rate : Handle κ) (settlement maturity : Date) (dayCount : DayCount) :
    Outcome α (Instrument κ α) :=
  return .deposit rate (← Loan.between dayCount settlement maturity)

def depositOver (rate : Handle κ) (settlement : Date) (tenor : Period) (dayCount : DayCount) :
    Outcome α (Instrument κ α) := do
  let maturity ← Outcome.ofDate (settlement.advanceBy tenor)
  depositBetween rate settlement maturity dayCount

def fraBetween (rate : Handle κ) (value maturity : Date) (dayCount : DayCount) :
    Outcome α (Instrument κ α) :=
  return .fra rate (← Loan.between dayCount value maturity)

/-- A forward rate agreement between two numbers of months after a settlement date. -/
def fraOverMonths (rate : Handle κ) (settlement : Date) (start stop : Int) (dayCount : DayCount) :
    Outcome α (Instrument κ α) := do
  Outcome.require (start < stop) (.monthsReversed start stop)
  let value ← Outcome.ofDate (settlement.advanceBy (.months start))
  let maturity ← Outcome.ofDate (settlement.advanceBy (.months stop))
  fraBetween rate value maturity dayCount

/-- A futures contract on the rate between two dates, without a convexity adjustment. -/
def futuresBetween (price : Handle κ) (start stop : Date) (dayCount : DayCount) :
    Outcome α (Instrument κ α) :=
  return .futures price .null (← Loan.between dayCount start stop)

def futuresOverMonths (price : Handle κ) (start : Date) (months : Int) (dayCount : DayCount) :
    Outcome α (Instrument κ α) := do
  let stop ← Outcome.ofDate (start.advanceBy (.months months))
  futuresBetween price start stop dayCount

/-- The same futures contract with a convexity adjustment; other instruments have none. -/
def withConvexity (convexity : Handle κ) : Instrument κ α → Instrument κ α
  | .futures price _ loan => .futures price convexity loan
  | other => other

def swapOn (rate : Handle κ) (dates : List Date) (dayCount : DayCount) :
    Outcome α (Instrument κ α) :=
  return .swap rate (← Schedule.ofDates dayCount dates)

def swapOver (rate : Handle κ) (settlement : Date) (tenor : Period) (frequency : Frequency)
    (dayCount : DayCount) : Outcome α (Instrument κ α) :=
  return .swap rate (← Schedule.ofTenor settlement tenor frequency dayCount)

/-! ## Dates and quotes -/

def start : Instrument κ α → Date
  | .deposit _ loan | .fra _ loan | .futures _ _ loan => loan.start
  | .swap _ schedule => schedule.start

/-- The last date, at which a curve has its node for the instrument. -/
def maturity : Instrument κ α → Date
  | .deposit _ loan | .fra _ loan | .futures _ _ loan => loan.stop
  | .swap _ schedule => schedule.stop

def quote : Instrument κ α → Handle κ
  | .deposit rate _ | .fra rate _ | .futures rate _ _ | .swap rate _ => rate

/-- The quotes that the instrument depends on, in the order in which it registers with them. -/
def sources : Instrument κ α → List κ
  | .futures price convexity _ => convexity.target?.toList ++ price.target?.toList
  | other => other.quote.target?.toList

variable (read : κ → Option α)

def referenceQuote (i : Instrument κ α) : Outcome α α :=
  Outcome.ofOption (.quoteMissing i.maturity) (i.quote.target?.bind read)

/-- The convexity adjustment of a futures contract, zero without one. -/
def convexityAdjustment (convexity : Handle κ) (stop : Date) : Outcome α α :=
  match convexity.target? with
  | none => .ok 0.0
  | some source => Outcome.ofOption (.convexityMissing stop) (read source)

def impliedQuote (i : Instrument κ α) (curve : CurveView α) : Outcome α α :=
  match i with
  | .deposit _ loan | .fra _ loan => loan.forward curve
  | .futures _ convexity loan => do
    let forward ← loan.forward curve
    let adjustment ← convexityAdjustment read convexity loan.stop
    return 100.0 * (1.0 - (forward + adjustment))
  | .swap _ schedule => schedule.parRate curve

/-- How far the implied quote lies below the observed one. -/
def quoteError (i : Instrument κ α) (curve : CurveView α) : Outcome α α := do
  let observed ← i.referenceQuote read
  let implied ← i.impliedQuote read curve
  return observed - implied

end Instrument

end RateCurves
