import RateCurves.Interpolation.Axis

/-!
# Bilinear surfaces

Values on a rectangular grid, stored row by row along the first axis. Within a cell the value is
the mean of the four corners weighted by the distances to the opposite ones; outside, the outermost
cells are continued.
-/

namespace RateCurves

variable {α : Type} [Scalar α]

/-- Two axes and a value for each pair of their positions. -/
structure Surface (α : Type) [Scalar α] where
  xs : Axis α
  ys : Axis α
  zs : Array α
  sizes : zs.size = xs.values.length * ys.values.length
  extrapolates : Bool := false

namespace Surface

def ofLists (xs ys : List α) (zs : Array α) : Outcome α (Surface α) := do
  let xs ← Axis.ofList xs
  let ys ← Axis.ofList ys
  if sizes : zs.size = xs.values.length * ys.values.length then
    return { xs, ys, zs, sizes }
  else throw (.gridSize zs.size xs.values.length ys.values.length)

/-- The value at position `i` of the first and `j` of the second axis. -/
def z (s : Surface α) (i j : Nat) : α := s.zs.getD (j * s.xs.values.length + i) 0.0

/-- The position of `x` within interval `i` of an axis, from zero at its left to one at its right
end. -/
def fraction (axis : Axis α) (i : Nat) (x : α) : α :=
  (x - axis.value i) / (axis.value (i + 1) - axis.value i)

/-- The bilinear formula of cell `(i, j)`. -/
def cellValue (s : Surface α) (i j : Nat) (x y : α) : α :=
  let t := fraction s.xs i x
  let u := fraction s.ys j y
  (1.0 - t) * (1.0 - u) * s.z i j + t * (1.0 - u) * s.z (i + 1) j +
    (1.0 - t) * u * s.z i (j + 1) + t * u * s.z (i + 1) (j + 1)

def value (s : Surface α) (x y : α) : α :=
  s.cellValue (s.xs.locate x) (s.ys.locate y) x y

def covers (s : Surface α) (x y : α) : Bool := s.xs.covers x && s.ys.covers y

def evaluate (s : Surface α) (x y : α) (extrapolate : Bool) : Outcome α α := do
  Outcome.require (extrapolate || s.extrapolates || s.covers x y)
    (.outsideGrid s.xs.low s.xs.high s.ys.low s.ys.high x y)
  return s.value x y

end Surface

end RateCurves
