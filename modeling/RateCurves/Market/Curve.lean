import RateCurves.Curve.Flat
import RateCurves.Market.Basic

/-!
# Curves in a market

A curve is given by values at dates, read off a quote, seen from a later date, or bootstrapped; only
bootstrapped ones have a cached solution in the market. `Market.ask` puts a query to a curve: the
solution is brought up to date exactly when the query gets as far as needing it.
-/

namespace RateCurves

variable {α : Type} [Scalar α]

/-- A curve with its permission to extrapolate. -/
inductive Curve (α : Type) [Scalar α] where
  | flat (curve : FlatCurve QuoteId) (extrapolates : Bool)
  | nodes (curve : NodeCurve α) (extrapolates : Bool)
  | bootstrapped (id : CurveId) (extrapolates : Bool)
  | implied (base : Curve α) (reference : Date) (extrapolates : Bool)

namespace LazyCurve

/-- A bootstrapped curve as its queries see it, with or without its solution. -/
def view (c : LazyCurve α) (evaluationDate : Option Date) (solution : Option (NodeCurve α))
    (extrapolates : Bool) : CurveView α where
  reference := c.spec.reference.resolve evaluationDate
  dayCount := c.spec.dayCount
  lastDate := c.spec.lastDate
  extrapolates
  discountAt t := do
    let nodes ← Outcome.ofOption .notBootstrapped solution
    return nodes.kind.discountAt nodes.interpolation t
  zeroAt t := do
    let nodes ← Outcome.ofOption .notBootstrapped solution
    return nodes.kind.zeroAt nodes.interpolation t
  forwardAt t := do
    let nodes ← Outcome.ofOption .notBootstrapped solution
    return nodes.kind.forwardAt nodes.interpolation t

end LazyCurve

namespace Market

/-! ## Bootstrapped curves -/

/-- A new bootstrapped curve, registered with the quotes of its instruments and, if its reference
date floats, with the evaluation date. -/
def addCurve (m : Market α) (spec : CurveSpec QuoteId α) : CurveId × Market α :=
  let id := m.curves.size
  let m := { m with curves := m.curves.push { spec } }
  let m := spec.instruments.foldl (fun m i => m.watchInstrument i (.curve id)) m
  match spec.reference with
  | .fixed _ => (id, m)
  | .floating _ => (id, m.watchDate (.curve id))

/-- The same curve with another solver, which makes it stale. -/
def withSolver (m : Market α) (id : CurveId) (solver : Solver) : Market α :=
  { m with curves := m.curves.modify id fun c =>
      { c with spec := { c.spec with solver }, cell := c.cell.invalidate } }

def modifyCell (m : Market α) (id : CurveId)
    (f : LazyCell (NodeCurve α) → LazyCell (NodeCurve α)) : Market α :=
  { m with curves := m.curves.modify id fun c => { c with cell := f c.cell } }

/-- Brings the solution of a curve up to date. -/
def calculate (m : Market α) (id : CurveId) : Outcome α Unit × Market α :=
  match m.curves[id]? with
  | none => (.error .notBootstrapped, m)
  | some c =>
    let compute (_ : Unit) : Outcome α (NodeCurve α) × Unit :=
      (c.spec.bootstrap m.read m.evaluation.current, ())
    let ((outcome, cell), ()) := c.cell.calculate compute ()
    (outcome, m.modifyCell id fun _ => cell)

def solution (m : Market α) (id : CurveId) : Outcome α (NodeCurve α) × Market α :=
  match m.calculate id with
  | (.error e, m) => (.error e, m)
  | (.ok (), m) =>
    (Outcome.ofOption .notBootstrapped (m.curves[id]?.bind (·.cell.value)), m)

end Market

namespace Curve

def extrapolates : Curve α → Bool
  | flat _ e | nodes _ e | bootstrapped _ e | implied _ _ e => e

def setExtrapolation (allow : Bool) : Curve α → Curve α
  | flat c _ => flat c allow
  | nodes c _ => nodes c allow
  | bootstrapped id _ => bootstrapped id allow
  | implied base reference _ => implied base reference allow

/-- The bootstrapped curve that this one is, or is seen through. -/
def source? : Curve α → Option CurveId
  | flat .. | nodes .. => none
  | bootstrapped id _ => some id
  | implied base _ _ => base.source?

def unknown : CurveView α where
  reference := .error .notBootstrapped
  dayCount := .actual365Fixed
  lastDate := .first
  extrapolates := false
  discountAt _ := .error .notBootstrapped
  zeroAt _ := .error .notBootstrapped
  forwardAt _ := .error .notBootstrapped

/-- The curve as its queries see it, with or without the solution of its source. -/
def view (m : Market α) (solution : Option (NodeCurve α)) : Curve α → CurveView α
  | flat c e => c.view m.read e
  | nodes c e => c.view e
  | bootstrapped id e =>
    match m.curves[id]? with
    | some c => c.view m.evaluation.current solution e
    | none => unknown
  | implied base reference e => (view m solution base).implied reference e

end Curve

namespace Market

/-- The answer to a query about a curve, and the market afterwards. A query that stops before it
needs the solution of a bootstrapped curve does not start a calculation. -/
def ask {β : Type} (m : Market α) (curve : Curve α) (query : CurveView α → Outcome α β) :
    Outcome α β × Market α :=
  match curve.source?, query (curve.view m none) with
  | some id, .error .notBootstrapped =>
    match m.solution id with
    | (.error e, m) => (.error e, m)
    | (.ok nodes, m) => (query (curve.view m (some nodes)), m)
  | _, answer => (answer, m)

end Market

end RateCurves
