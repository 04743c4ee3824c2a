import RateCurves.Decimal.Text
import RateCurves.Failure.Basic

/-!
# The wording of failures

`Failure.detail` words a cause, and `Failure.message` puts the kind in front of it.
-/

namespace RateCurves

namespace FailureKind

def name : FailureKind → String
  | .configuration => "Configuration"
  | .range => "Range"
  | .convergence => "Convergence"
  | .date => "Date"
  | .runtime => "Runtime"

/-- What stands before the wording of a cause of this kind. -/
def label : FailureKind → String
  | .configuration => "configuration error: "
  | .range => "range error: "
  | .convergence => "convergence error: "
  | .date => "date error: "
  | .runtime => ""

end FailureKind

namespace Failure

private def num (x : Float) : String := NumberStyle.plain.text x

private def nums (xs : List Float) : String := NumberStyle.listed.listText xs

/-- The text of a number in a message, always with an exponent. -/
private def sci (x : Float) : String := NumberStyle.scientific.text x

def detail : Failure Float → String
  | .other _ text => text
  | .date e => e.message
  | .negativeTime t => s!"negative time ({num t}) not allowed"
  | .factorNotPositive factor rate t =>
    s!"non-positive compound factor {num factor} for rate {num rate} over {num t}"
  | .growthNotPositive factor => s!"positive compound factor required, got {num factor}"
  | .growthTimeNegative t => s!"non-negative time required, got {num t}"
  | .growthTimeNotPositive t => s!"positive time required, got {num t}"
  | .irregularFrequency f => s!"{f.text} frequency not allowed for compounded rates"
  | .noPeriod f => s!"cannot convert {f.text} frequency to a period"
  | .sizesDiffer xs ys => s!"x and y arrays have different sizes ({xs} vs {ys})"
  | .tooFewPoints required given =>
    s!"not enough points to interpolate: at least {required} required, {given} provided"
  | .abscissaNotFinite xs => s!"non-finite x value in {nums xs}"
  | .abscissaeNotIncreasing i left right =>
    s!"x values must be strictly increasing: x[{i}] = {num left}, x[{i + 1}] = {num right}"
  | .ordinateNotPositive ys => s!"log-linear interpolation needs positive values, got {nums ys}"
  | .gridSize zs xs ys => s!"z length ({zs}) must equal nx*ny ({xs}*{ys})"
  | .outsideNodes low high x =>
    s!"interpolation range is [{num low}, {num high}]: extrapolation at {num x} not allowed"
  | .outsideGrid xLow xHigh yLow yHigh x y =>
    s!"interpolation range is [{num xLow}, {num xHigh}] x [{num yLow}, {num yHigh}]: " ++
      s!"extrapolation at ({num x}, {num y}) not allowed"
  | .accuracyNotPositive accuracy => s!"accuracy ({num accuracy}) must be positive"
  | .bracketReversed low high =>
    s!"invalid range: x_min ({num low}) >= x_max ({num high})"
  | .guessTooLow guess low => s!"guess ({num guess}) must be greater than x_min ({num low})"
  | .guessTooHigh guess high => s!"guess ({num guess}) must be less than x_max ({num high})"
  | .notBracketed low high atLow atHigh =>
    s!"root not bracketed: f[{num low}, {num high}] -> [{sci atLow}, {sci atHigh}]"
  | .budgetExhausted budget => s!"maximum number of function evaluations ({budget}) exceeded"
  | .notANumberAt x => s!"objective function returned NaN at x = {num x}"
  | .timeBeforeReference t => s!"negative time ({num t}) given"
  | .timePastEnd t last => s!"time ({num t}) is past max curve time ({num last})"
  | .dateBeforeReference d reference =>
    s!"date ({d.text}) before reference date ({reference.text})"
  | .datePastEnd d last => s!"date ({d.text}) is past max curve date ({last.text})"
  | .forwardTimesReversed start stop =>
    s!"forward start time ({num start}) after end time ({num stop})"
  | .forwardDatesReversed start stop =>
    s!"forward start date ({start.text}) after end date ({stop.text})"
  | .tooFewNodes given => s!"not enough nodes: {given} given, at least 2 required"
  | .nodeCounts dates values => s!"dates/values count mismatch: {dates} vs {values}"
  | .nodeDatesNotIncreasing earlier later =>
    s!"dates must be strictly increasing: {later.text} follows {earlier.text}"
  | .firstDiscount value => s!"initial discount factor ({num value}) must be 1.0"
  | .discountNotPositive value d =>
    s!"non-positive discount factor ({num value}) at {d.text}"
  | .flatRateMissing => "null flat-forward rate quote"
  | .evaluationDateMissing => "no evaluation date is set"
  | .accrualReversed start stop =>
    s!"end date ({stop.text}) must be after start date ({start.text})"
  | .accrualZero start stop dc =>
    s!"zero accrual between {start.text} and {stop.text} under {dc.name}"
  | .monthsReversed start stop =>
    s!"months to end ({stop}) must be greater than months to start ({start})"
  | .scheduleTooShort given => s!"fixed schedule needs at least 2 dates, {given} given"
  | .tenorNotPositive tenor => s!"swap tenor ({tenor.text}) must be positive"
  | .quoteMissing maturity => s!"invalid quote for instrument maturing {maturity.text}"
  | .convexityMissing maturity =>
    s!"invalid convexity adjustment for futures maturing {maturity.text}"
  | .annuityZero maturity => s!"zero fixed-leg annuity for swap maturing {maturity.text}"
  | .noIterations => "at least one iteration required"
  | .noInstruments => "no instruments given"
  | .maturityTwice maturity => s!"more than one instrument with maturity {maturity.text}"
  | .maturityTooEarly maturity reference =>
    s!"instrument maturing {maturity.text} is not after the reference date {reference.text}"
  | .maturityNotLater maturity dc =>
    s!"instrument maturing {maturity.text} does not extend the curve under {dc.name}"
  | .segmentUnsolved maturity segment iteration cause =>
    s!"could not bootstrap instrument maturing {maturity.text} " ++
      s!"(segment {segment}, iteration {iteration}): {cause.kind.label}{cause.detail}"
  | .notConverged iterations => s!"bootstrap did not converge after {iterations} iterations"
  | .notBootstrapped => "yield curve has not been bootstrapped"

/-- The wording of a cause with its kind in front. -/
def message (failure : Failure Float) : String := failure.kind.label ++ failure.detail

end Failure

end RateCurves
