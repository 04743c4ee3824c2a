import RateCurves.Interpolation.Nodes

/-!
# Natural cubic splines

The second derivatives `M` at the nodes, here called moments, solve

`h i * M i + 2 * (h i + h (i + 1)) * M (i + 1) + h (i + 1) * M (i + 2) = 6 * (s (i + 1) - s i)`

with zero at both ends, where `h` are the widths of the intervals and `s` the slopes of the chords.
On interval `i` the spline is `y i + dx * (a i + dx * (b i + dx * c i))`, also beyond the ends.
-/

namespace RateCurves.Cubic

variable {α : Type} [Scalar α]

def diagonal (nodes : Nodes α) (j : Nat) : α := 2.0 * (nodes.width j + nodes.width (j + 1))

def load (nodes : Nodes α) (j : Nat) : α := 6.0 * (nodes.slope (j + 1) - nodes.slope j)

/-- The moments that rows `j` to `j + more` determine, when the row before has been eliminated from
row `j` and left it with the given pivot and right side: elimination on the way down, substitution
on the way back. -/
def solveRows (nodes : Nodes α) : (more j : Nat) → (pivot right : α) → List α
  | 0, _, pivot, right => [right / pivot]
  | more + 1, j, pivot, right =>
    let h := nodes.width (j + 1)
    let w := h / pivot
    let rest := solveRows nodes more (j + 1) (diagonal nodes (j + 1) - w * h)
      (load nodes (j + 1) - w * right)
    (right - h * rest.headD 0.0) / pivot :: rest

/-- The second derivatives at the nodes, zero at both ends. -/
def moments (nodes : Nodes α) : List α :=
  if nodes.size < 3 then List.replicate nodes.size 0.0
  else 0.0 :: solveRows nodes (nodes.size - 3) 0 (diagonal nodes 0) (load nodes 0) ++ [0.0]

structure Spline (α : Type) [Scalar α] where
  nodes : Nodes α
  moments : List α

namespace Spline

def ofNodes (nodes : Nodes α) : Spline α := ⟨nodes, Cubic.moments nodes⟩

def moment (s : Spline α) (i : Nat) : α := s.moments.getD i 0.0

def a (s : Spline α) (i : Nat) : α :=
  s.nodes.slope i - s.nodes.width i * (2.0 * s.moment i + s.moment (i + 1)) / 6.0

def b (s : Spline α) (i : Nat) : α := 0.5 * s.moment i

def c (s : Spline α) (i : Nat) : α :=
  (s.moment (i + 1) - s.moment i) / (6.0 * s.nodes.width i)

def value (s : Spline α) (x : α) : α :=
  let i := s.nodes.locate x
  match s.nodes.nodeValue? i x with
  | some y => y
  | none =>
    let dx := x - s.nodes.x i
    s.nodes.y i + dx * (s.a i + dx * (s.b i + dx * s.c i))

/-- The integral from the left end of interval `i` over a width of `dx`. -/
def integral (s : Spline α) (i : Nat) (dx : α) : α :=
  dx * (s.nodes.y i + dx * (s.a i / 2.0 + dx * (s.b i / 3.0 + dx * s.c i / 4.0)))

def primitive (s : Spline α) (x : α) : α :=
  let i := s.nodes.locate x
  Nodes.areaTo (fun j => s.integral j (s.nodes.width j)) i + s.integral i (x - s.nodes.x i)

def derivative (s : Spline α) (x : α) : α :=
  let i := s.nodes.locate x
  let dx := x - s.nodes.x i
  s.a i + dx * (2.0 * s.b i + 3.0 * dx * s.c i)

def secondDerivative (s : Spline α) (x : α) : α :=
  let i := s.nodes.locate x
  let dx := x - s.nodes.x i
  2.0 * s.b i + 6.0 * dx * s.c i

end Spline

end RateCurves.Cubic
