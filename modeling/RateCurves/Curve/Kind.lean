import RateCurves.Interpolation.Scheme

/-!
# What the nodes of a curve hold

The node values of a curve are discount factors, zero yields or instantaneous forwards. The kind
gives the formulas that turn an interpolation of them into all three quantities, and the starting
values and bounds for solving them one by one. Past the last node the instantaneous forward stays
what it is there.
-/

namespace RateCurves

open Scalar

variable {α : Type} [Scalar α]

/-- The meaning of node values. -/
inductive CurveKind where
  | discount
  | forwardRate
  | zeroYield
  deriving DecidableEq

namespace CurveKind

def text : CurveKind → String
  | .discount => "discount"
  | .forwardRate => "forward rate"
  | .zeroYield => "zero yield"

/-! ## Solving for node values -/

/-- The value of every node before it is solved for. -/
def initialValue : CurveKind → α
  | .discount => 1.0
  | _ => 0.05

/-- Where the search for the first node starts. -/
def initialGuess : CurveKind → α
  | .discount => 0.9
  | _ => 0.05

/-- The magnitude that no rate exceeds, also the highest discount factor. -/
def ceiling : α := 3.0

def least (kind : CurveKind) (negativeRates : Bool) : α :=
  match kind with
  | .discount => epsilon
  | _ => if negativeRates then -ceiling else epsilon

/-- The greatest value of node `i`. Without negative rates a discount factor does not exceed the one
before it. -/
def greatest (kind : CurveKind) (negativeRates : Bool) (i : Nat) (data : List α) : α :=
  match kind with
  | .discount => if negativeRates then ceiling else data.getD (i - 1) 0.0
  | _ => ceiling

/-- The node values with `value` at node `i`; a first rate is also the one at the reference date. -/
def place (kind : CurveKind) (data : List α) (value : α) (i : Nat) : List α :=
  match kind with
  | .discount => data.set i value
  | _ => if i = 1 then (data.set 1 value).set 0 value else data.set i value

/-! ## Quantities -/

def discountOfDiscounts (f : Interpolation α) (t : α) : α :=
  if t ≤ f.high then f.value t
  else
    let forward := -(f.derivative f.high) / f.lastValue
    f.lastValue * exp (-forward * (t - f.high))

def forwardOfDiscounts (f : Interpolation α) (t : α) : α :=
  if t ≤ f.high then -(f.derivative t) / f.value t else -(f.derivative f.high) / f.lastValue

def zeroOfZeros (f : Interpolation α) (t : α) : α :=
  if t ≤ f.high then f.value t
  else
    let forward := f.lastValue + f.high * f.derivative f.high
    (f.lastValue * f.high + forward * (t - f.high)) / t

def forwardOfZeros (f : Interpolation α) (t : α) : α :=
  if t ≤ f.high then f.value t + t * f.derivative t
  else f.lastValue + f.high * f.derivative f.high

def integralOfForwards (f : Interpolation α) (t : α) : α :=
  if t ≤ f.high then f.primitive t else f.primitive f.high + f.lastValue * (t - f.high)

def forwardOfForwards (f : Interpolation α) (t : α) : α :=
  if t ≤ f.high then f.value t else f.lastValue

def discountAt (kind : CurveKind) (f : Interpolation α) (t : α) : α :=
  match kind with
  | .discount => discountOfDiscounts f t
  | .zeroYield => exp (-(zeroOfZeros f t) * t)
  | .forwardRate => exp (-(integralOfForwards f t))

def forwardAt (kind : CurveKind) (f : Interpolation α) (t : α) : α :=
  match kind with
  | .discount => forwardOfDiscounts f t
  | .zeroYield => forwardOfZeros f t
  | .forwardRate => forwardOfForwards f t

/-- The zero yield at time `t`; at time zero it is the forward. -/
def zeroAt (kind : CurveKind) (f : Interpolation α) (t : α) : α :=
  match kind with
  | .discount => if t == 0.0 then forwardOfDiscounts f 0.0 else -(ln (discountOfDiscounts f t)) / t
  | .zeroYield => zeroOfZeros f t
  | .forwardRate => if t == 0.0 then forwardOfForwards f 0.0 else integralOfForwards f t / t

end CurveKind

end RateCurves
