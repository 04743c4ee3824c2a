import RateCurves.Failure.Message
import RateCurves.InterestRate.Text
import RateCurves.Interpolation.Scheme
import RateCurves.Interpolation.Surface
import RateCurves.RootSearch.Solver
import RateCurves.Curve.Flat
import RateCurves.Curve.Nodes
import RateCurves.Bootstrap.Solve
import RateCurves.Observation.Broadcast
import RateCurves.Observation.Lazy
import RateCurves.Market.Curve
import RateCurves.Proofs.RootSearch.Budget
import RateCurves.Proofs.Interpolation.Spline
import RateCurves.Proofs.Interpolation.Slopes
import RateCurves.Proofs.Interpolation.Primitive
import RateCurves.Proofs.Curve.Reproduction
import RateCurves.Proofs.Curve.Rates
import RateCurves.Proofs.Bootstrap.Repricing
import RateCurves.Proofs.Market.Freshness
import RateCurves.Proofs.Bootstrap.Deposits
import RateCurves.Proofs.Bootstrap.Truncation
import RateCurves.Proofs.Bootstrap.Decreasing
import RateCurves.Proofs.Market.Frozen
import RateCurves.Proofs.Market.Permutation
import RateCurves.Proofs.Market.Missing
import RateCurves.Proofs.Curve.FlatForwards
import RateCurves.Proofs.Curve.Views
import RateCurves.Proofs.Curve.Reanchoring
import RateCurves.Proofs.Curve.Domain
import RateCurves.Proofs.Bootstrap.Failures
import RateCurves.Proofs.Bootstrap.Unsupported
import RateCurves.Proofs.RootSearch.Halving
import RateCurves.Proofs.InterestRate.RoundTrip
import RateCurves.Proofs.Observation.Delivery
import RateCurves.Proofs.Observation.Validity
import RateCurves.Proofs.Market.Scopes
import RateCurves.Proofs.Instrument.Tenor
import RateCurves.Proofs.Curve.Dates
import RateCurves.Proofs.Calendar.Days
import RateCurves.Proofs.Calendar.Months
import RateCurves.Proofs.Bootstrap.Collisions
import RateCurves.Proofs.Scalar.Partial
import RateCurves.Proofs.Curve.Flat
import RateCurves.Proofs.Interpolation.Search
import RateCurves.Proofs.InterestRate.Growth
