import RateCurves.Bootstrap.Config
import RateCurves.Instrument.Basic
import RateCurves.Interpolation.Scheme
import RateCurves.Curve.Kind
import RateCurves.RootSearch.Solver

/-!
# What a bootstrapped curve is made from

Instruments in order of maturity, a reference date that is fixed or floats with the evaluation date,
and the choices of kind, scheme, day count and solver. `CurveSpec.make` checks what can be checked
without quotes.
-/

namespace RateCurves

variable {κ α : Type} [Scalar α]

inductive Reference where
  | fixed (date : Date)
  | floating (settlementDays : Nat)

/-- The reference date under an evaluation date, from which floating ones are counted. -/
def Reference.resolve (evaluationDate : Option Date) : Reference → Outcome α Date
  | .fixed date => .ok date
  | .floating days => do
    let today ← Outcome.ofOption .evaluationDateMissing evaluationDate
    Outcome.ofDate (today.addDays days)

/-- What a bootstrapped curve is made from; the instruments are in order of maturity. -/
structure CurveSpec (κ α : Type) [Scalar α] where
  kind : CurveKind
  reference : Reference
  instruments : List (Instrument κ α)
  dayCount : DayCount
  scheme : Scheme
  config : BootstrapConfig α
  solver : Solver

namespace CurveSpec

/-- The first maturity that two neighbouring instruments share. -/
def sharedMaturity? : List (Instrument κ α) → Option Date
  | a :: b :: rest =>
    if a.maturity = b.maturity then some a.maturity else sharedMaturity? (b :: rest)
  | _ => none

/-- Puts the instruments in order of maturity and checks what can be checked without quotes. -/
def make (kind : CurveKind) (reference : Reference) (instruments : List (Instrument κ α))
    (dayCount : DayCount) (scheme : Scheme) (config : BootstrapConfig α) (solver : Solver) :
    Outcome α (CurveSpec κ α) := do
  config.validate
  let instruments := instruments.mergeSort fun a b => decide (a.maturity ≤ b.maturity)
  match instruments with
  | [] => throw .noInstruments
  | first :: _ =>
    match sharedMaturity? instruments with
    | some maturity => throw (.maturityTwice maturity)
    | none =>
      match reference with
      | .fixed date =>
        Outcome.require (date < first.maturity) (.maturityTooEarly first.maturity date)
      | .floating _ => pure ()
      return { kind, reference, instruments, dayCount, scheme, config, solver }

def lastDate (spec : CurveSpec κ α) : Date :=
  (spec.instruments.map (·.maturity)).getLastD .first

end CurveSpec

end RateCurves
