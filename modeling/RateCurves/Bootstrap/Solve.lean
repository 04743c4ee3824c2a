import RateCurves.Bootstrap.Spec
import RateCurves.Curve.Nodes

/-!
# Bootstrapping

A curve with one node at the maturity of each instrument, whose values make the implied quotes equal
to the observed ones. The nodes are solved one by one in order of maturity, in passes that are
repeated until the values settle; a scheme in which every value depends on every node takes one
pass. In the first pass the curve ends at the node being solved, later it has all nodes.
-/

namespace RateCurves

open Scalar

variable {κ α : Type} [Scalar α]

namespace CurveSpec

/-! ## Node dates and times -/

/-- The dates and times of the nodes, the reference date first. -/
structure Frame (α : Type) where
  dates : List Date
  times : List α

/-- Every instrument matures after the reference date and has a quote. -/
def checkInstruments (read : κ → Option α) (reference : Date) (spec : CurveSpec κ α) :
    Outcome α Unit :=
  spec.instruments.forM fun instrument => do
    Outcome.require (reference < instrument.maturity)
      (.maturityTooEarly instrument.maturity reference)
    let _ ← instrument.referenceQuote read

/-- The first date whose time is not after the time before it. -/
def stalled? : List (Date × α) → Option Date
  | a :: b :: rest => if a.2 < b.2 then stalled? (b :: rest) else some b.1
  | _ => none

/-- The frame of the nodes, whose times have to increase. -/
def frame (spec : CurveSpec κ α) (reference : Date) : Outcome α (Frame α) := do
  let dates := reference :: spec.instruments.map (·.maturity)
  let times := dates.map fun date => (spec.dayCount.yearFraction reference date : α)
  match stalled? (dates.zip times) with
  | some date => throw (.maturityNotLater date spec.dayCount)
  | none => return ⟨dates, times⟩

/-! ## Solving -/

def partialCurve (spec : CurveSpec κ α) (frame : Frame α) (scheme : Scheme) (span : Nat)
    (data : List α) : Outcome α (NodeCurve α) :=
  NodeCurve.fit spec.kind spec.dayCount scheme (frame.dates.take span) (frame.times.take span)
    (data.take span)

/-- The error of an instrument's quote as a function of the value of its node. The node values are
the state: a value that has been tried stays in them. -/
def quoteErrorAt (spec : CurveSpec κ α) (read : κ → Option α) (frame : Frame α) (scheme : Scheme)
    (span i : Nat) (instrument : Instrument κ α) : Objective (List α) α := fun x data =>
  let data := spec.kind.place data x i
  let outcome := do
    let curve ← spec.partialCurve frame scheme span data
    instrument.quoteError read (curve.view true)
  (outcome, data)

/-- The value that the curve solved so far, extended to time `t`, suggests for the next node. -/
def guessFrom (kind : CurveKind) (curve : CurveView α) (t : α) : Outcome α α :=
  match kind with
  | .discount => curve.discount t true
  | .zeroYield => curve.zeroRate t true
  | .forwardRate => curve.forwardRate t t true

/-- The scheme and the number of nodes in force when node `i` is solved. A global scheme has too few
nodes for the first one, which is solved on a line. -/
def stage (spec : CurveSpec κ α) (iteration i : Nat) : Scheme × Nat :=
  if iteration ≠ 0 then (spec.scheme, spec.instruments.length + 1)
  else if spec.scheme.isGlobal && i < 2 then (.linear, i + 1)
  else (spec.scheme, i + 1)

def firstGuess (spec : CurveSpec κ α) (frame : Frame α) (iteration i : Nat) (data : List α) :
    Outcome α α :=
  if iteration ≠ 0 then .ok (0.99 * data.getD i 0.0)
  else if 1 < i then do
    let curve ← spec.partialCurve frame spec.scheme i data
    guessFrom spec.kind (curve.view true) (frame.times.getD i 0.0)
  else .ok spec.kind.initialGuess

structure SearchRange (α : Type) where
  guess : α
  low : α
  high : α

/-- The range of the search for node `i`: its bounds, and the first guess, which is moved to the
middle of the bounds unless it lies inside them. -/
def searchRange (spec : CurveSpec κ α) (frame : Frame α) (iteration i : Nat) (data : List α) :
    Outcome α (SearchRange α) := do
  let guess ← spec.firstGuess frame iteration i data
  let low := spec.kind.least spec.config.negativeRates
  let high := spec.kind.greatest spec.config.negativeRates i data
  let guess := if guess ≤ low || high ≤ guess then (low + high) / 2.0 else guess
  return { guess, low, high }

def objective (spec : CurveSpec κ α) (read : κ → Option α) (frame : Frame α) (iteration i : Nat)
    (instrument : Instrument κ α) : Objective (List α) α :=
  let (scheme, span) := spec.stage iteration i
  spec.quoteErrorAt read frame scheme span i instrument

def solveSegment (spec : CurveSpec κ α) (read : κ → Option α) (frame : Frame α)
    (iteration i : Nat) (instrument : Instrument κ α) : Trial (List α) α α := do
  let range ← Trial.ofOutcome (spec.searchRange frame iteration i (← get))
  spec.solver.solve (spec.objective read frame iteration i instrument) spec.config.accuracy
    range.guess range.low range.high

/-- Solves the nodes of the given instruments, the first of which is node `i`. -/
def solveFrom (spec : CurveSpec κ α) (read : κ → Option α) (frame : Frame α) (iteration : Nat) :
    (i : Nat) → List (Instrument κ α) → (data : List α) → Outcome α (List α)
  | _, [], data => .ok data
  | i, instrument :: rest, data =>
    match spec.solveSegment read frame iteration i instrument data with
    | (.error cause, _) =>
      .error (.segmentUnsolved instrument.maturity i (iteration + 1) cause)
    | (.ok value, data) =>
      solveFrom spec read frame iteration (i + 1) rest (spec.kind.place data value i)

def pass (spec : CurveSpec κ α) (read : κ → Option α) (frame : Frame α) (iteration : Nat)
    (data : List α) : Outcome α (List α) :=
  spec.solveFrom read frame iteration 1 spec.instruments data

/-- The sum of the changes of all node values but the first. -/
def improvement (before after : List α) : α :=
  sum (((after.zip before).drop 1).map fun (now, earlier) => abs (now - earlier))

/-- One pass is enough: the scheme is global, or there is a single node. -/
def singlePass (spec : CurveSpec κ α) : Bool :=
  spec.scheme.isGlobal || spec.instruments.length = 1

/-- Passes until the node values settle, at most `more` of them. -/
def settle (spec : CurveSpec κ α) (read : κ → Option α) (frame : Frame α) :
    (more iteration : Nat) → (data : List α) → Outcome α (List α)
  | 0, _, _ => .error (.notConverged spec.config.maxIterations)
  | more + 1, iteration, data => do
    let next ← spec.pass read frame iteration data
    if spec.singlePass ||
        improvement data next ≤ ofNat spec.instruments.length * spec.config.accuracy then
      return next
    settle spec read frame more (iteration + 1) next

/-- The bootstrapped curve, when quotes are read by `read`. -/
def bootstrap (spec : CurveSpec κ α) (read : κ → Option α) (evaluationDate : Option Date) :
    Outcome α (NodeCurve α) := do
  let reference ← spec.reference.resolve evaluationDate
  spec.checkInstruments read reference
  let frame ← spec.frame reference
  let start := List.replicate (spec.instruments.length + 1) (spec.kind.initialValue : α)
  let data ← spec.settle read frame spec.config.maxIterations 0 start
  NodeCurve.fit spec.kind spec.dayCount spec.scheme frame.dates frame.times data

end CurveSpec

end RateCurves
