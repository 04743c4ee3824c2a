import RateCurves.Interpolation.Nodes

/-!
# Piecewise-constant interpolation

Backward-flat takes the ordinate at the right end of each interval, forward-flat the one at the
left end. Both have the ordinate of a node at the node itself, and keep the ordinate of the first
and last node outside.
-/

namespace RateCurves

variable {α : Type} [Scalar α]

namespace BackwardFlat

def value (nodes : Nodes α) (x : α) : α :=
  if x ≤ nodes.x 0 then nodes.y 0
  else
    let i := nodes.locate x
    if x == nodes.x i then nodes.y i else nodes.y (i + 1)

/-- The integral from the first node to `x`. -/
def primitive (nodes : Nodes α) (x : α) : α :=
  if x ≤ nodes.x 0 then (x - nodes.x 0) * nodes.y 0
  else
    let i := nodes.locate x
    Nodes.areaTo (fun j => nodes.width j * nodes.y (j + 1)) i +
      (x - nodes.x i) * nodes.y (i + 1)

end BackwardFlat

namespace ForwardFlat

def value (nodes : Nodes α) (x : α) : α :=
  if nodes.x nodes.final ≤ x then nodes.y nodes.final else nodes.y (nodes.locate x)

def primitive (nodes : Nodes α) (x : α) : α :=
  let area := Nodes.areaTo fun j => nodes.width j * nodes.y j
  if nodes.x nodes.final ≤ x then
    area nodes.final + (x - nodes.x nodes.final) * nodes.y nodes.final
  else
    let i := nodes.locate x
    area i + (x - nodes.x i) * nodes.y i

end ForwardFlat

end RateCurves
