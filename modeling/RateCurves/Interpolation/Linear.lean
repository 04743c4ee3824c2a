import RateCurves.Interpolation.Nodes

/-!
# Linear interpolation

Straight lines between neighbouring nodes, the first and last one continued outwards.
-/

namespace RateCurves.Linear

variable {α : Type} [Scalar α]

def value (nodes : Nodes α) (x : α) : α :=
  let i := nodes.locate x
  match nodes.nodeValue? i x with
  | some y => y
  | none => nodes.y i + nodes.slope i * (x - nodes.x i)

/-- The integral from the left end of interval `i` over a width of `dx`. -/
def integral (nodes : Nodes α) (i : Nat) (dx : α) : α :=
  dx * (nodes.y i + 0.5 * dx * nodes.slope i)

def primitive (nodes : Nodes α) (x : α) : α :=
  let i := nodes.locate x
  Nodes.areaTo (fun j => integral nodes j (nodes.width j)) i + integral nodes i (x - nodes.x i)

def derivative (nodes : Nodes α) (x : α) : α := nodes.slope (nodes.locate x)

end RateCurves.Linear
