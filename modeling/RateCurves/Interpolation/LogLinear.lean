import RateCurves.Interpolation.Nodes

/-!
# Log-linear interpolation

The logarithms of the ordinates are interpolated linearly, so the value grows or decays
exponentially between neighbouring nodes. All ordinates have to be positive.
-/

namespace RateCurves.LogLinear

open Scalar

variable {α : Type} [Scalar α]

/-- All ordinates are positive. -/
def accepts (ys : List α) : Bool := ys.all (0.0 < ·)

/-- The rate of growth over interval `i`. -/
def rate (nodes : Nodes α) (i : Nat) : α :=
  (ln (nodes.y (i + 1)) - ln (nodes.y i)) / nodes.width i

def value (nodes : Nodes α) (x : α) : α :=
  let i := nodes.locate x
  match nodes.nodeValue? i x with
  | some y => y
  | none => exp (ln (nodes.y i) + rate nodes i * (x - nodes.x i))

/-- The integral of exponential growth from `start` at rate `b` over a width of `dx`. -/
def growthIntegral (start b dx : α) : α :=
  if b == 0.0 then start * dx else start * expMinusOne (b * dx) / b

def integral (nodes : Nodes α) (i : Nat) (dx : α) : α :=
  growthIntegral (nodes.y i) (rate nodes i) dx

def primitive (nodes : Nodes α) (x : α) : α :=
  let i := nodes.locate x
  Nodes.areaTo (fun j => integral nodes j (nodes.width j)) i + integral nodes i (x - nodes.x i)

def derivative (nodes : Nodes α) (x : α) : α :=
  value nodes x * rate nodes (nodes.locate x)

def secondDerivative (nodes : Nodes α) (x : α) : α :=
  let b := rate nodes (nodes.locate x)
  value nodes x * b * b

end RateCurves.LogLinear
