import RateCurves.Interpolation.Axis

/-!
# Nodes

The points that an interpolation passes through: an axis of abscissae and an ordinate for each.
Positions past the last node have the value zero, which no query reads.
-/

namespace RateCurves

variable {α : Type} [Scalar α]

/-- Abscissae and their ordinates. -/
structure Nodes (α : Type) [Scalar α] where
  axis : Axis α
  ys : List α
  sizes : ys.length = axis.values.length

namespace Nodes

def ofLists (xs ys : List α) : Outcome α (Nodes α) :=
  if sizes : xs.length = ys.length then
    match made : Axis.ofList xs with
    | .error e => .error e
    | .ok axis => .ok ⟨axis, ys, by rw [Axis.values_of_ofList made, sizes]⟩
  else .error (.sizesDiffer xs.length ys.length)

def size (nodes : Nodes α) : Nat := nodes.axis.values.length

def final (nodes : Nodes α) : Nat := nodes.size - 1

def x (nodes : Nodes α) (i : Nat) : α := nodes.axis.value i

def y (nodes : Nodes α) (i : Nat) : α := nodes.ys.getD i 0.0

def width (nodes : Nodes α) (i : Nat) : α := nodes.x (i + 1) - nodes.x i

/-- The slope of the chord over interval `i`. -/
def slope (nodes : Nodes α) (i : Nat) : α := (nodes.y (i + 1) - nodes.y i) / nodes.width i

def locate (nodes : Nodes α) (x : α) : Nat := nodes.axis.locate x

/-- The ordinate at `x` if it is one of the two ends of interval `i`. -/
def nodeValue? (nodes : Nodes α) (i : Nat) (x : α) : Option α :=
  if x == nodes.x i then some (nodes.y i)
  else if x == nodes.x (i + 1) then some (nodes.y (i + 1))
  else none

/-- The integral from the first node to node `i`, when `part j` is the one over interval `j`. -/
def areaTo (part : Nat → α) : Nat → α
  | 0 => 0.0
  | i + 1 => areaTo part i + part i

end Nodes

end RateCurves
