import RateCurves.Interpolation.Cubic
import RateCurves.Interpolation.Flat
import RateCurves.Interpolation.Linear
import RateCurves.Interpolation.LogLinear

/-!
# Interpolation schemes

A scheme turns nodes into an interpolation: four functions of the abscissa that are defined
everywhere, with queries that refuse abscissae outside the nodes unless extrapolation is allowed.
-/

namespace RateCurves

variable {α : Type} [Scalar α]

inductive Scheme where
  | linear
  | logLinear
  | backwardFlat
  | forwardFlat
  | cubic
  deriving DecidableEq

/-- Nodes with the function fitted to them, its primitive and its first two derivatives. -/
structure Interpolation (α : Type) [Scalar α] where
  nodes : Nodes α
  value : α → α
  primitive : α → α
  derivative : α → α
  secondDerivative : α → α
  extrapolates : Bool := false

namespace Scheme

/-- Whether every value depends on every node. -/
def isGlobal : Scheme → Bool
  | .cubic => true
  | _ => false

def requiredPoints : Scheme → Nat
  | _ => 2

/-- The interpolation of valid nodes; only the log-linear scheme refuses some. -/
def interpolate (scheme : Scheme) (nodes : Nodes α) : Outcome α (Interpolation α) :=
  let zero : α → α := fun _ => 0.0
  match scheme with
  | .linear =>
    .ok { nodes, value := Linear.value nodes, primitive := Linear.primitive nodes,
          derivative := Linear.derivative nodes, secondDerivative := zero }
  | .logLinear =>
    if LogLinear.accepts nodes.ys then
      .ok { nodes, value := LogLinear.value nodes, primitive := LogLinear.primitive nodes,
            derivative := LogLinear.derivative nodes,
            secondDerivative := LogLinear.secondDerivative nodes }
    else .error (.ordinateNotPositive nodes.ys)
  | .backwardFlat =>
    .ok { nodes, value := BackwardFlat.value nodes, primitive := BackwardFlat.primitive nodes,
          derivative := zero, secondDerivative := zero }
  | .forwardFlat =>
    .ok { nodes, value := ForwardFlat.value nodes, primitive := ForwardFlat.primitive nodes,
          derivative := zero, secondDerivative := zero }
  | .cubic =>
    let s := Cubic.Spline.ofNodes nodes
    .ok { nodes, value := s.value, primitive := s.primitive, derivative := s.derivative,
          secondDerivative := s.secondDerivative }

def fit (scheme : Scheme) (xs ys : List α) : Outcome α (Interpolation α) := do
  let nodes ← Nodes.ofLists xs ys
  scheme.interpolate nodes

end Scheme

namespace Interpolation

def low (f : Interpolation α) : α := f.nodes.axis.low

def high (f : Interpolation α) : α := f.nodes.axis.high

def lastValue (f : Interpolation α) : α := f.nodes.y f.nodes.final

/-- `x` lies between the nodes or close to one of the ends. -/
def covers (f : Interpolation α) (x : α) : Bool := f.nodes.axis.covers x

/-- Passes if extrapolation is allowed, by the caller or by the interpolation, or not needed. -/
def checkRange (f : Interpolation α) (x : α) (extrapolate : Bool) : Outcome α Unit :=
  Outcome.require (extrapolate || f.extrapolates || f.covers x) (.outsideNodes f.low f.high x)

/-- One of the four functions at `x`, after the range check. -/
def query (f : Interpolation α) (function : Interpolation α → α → α) (x : α) (extrapolate : Bool) :
    Outcome α α := do
  f.checkRange x extrapolate
  return function f x

end Interpolation

end RateCurves
