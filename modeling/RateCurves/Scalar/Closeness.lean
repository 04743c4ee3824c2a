import RateCurves.Scalar.Basic

/-!
# Closeness

Two values are close if they differ by at most `n` units of `epsilon`, relative to their
magnitudes. `close` asks this of both magnitudes and `closeEnough` of one of them. If their product
is zero the tolerance is absolute and squared, so that only a tiny value is close to zero.
-/

namespace RateCurves.Scalar

variable {α : Type} [Scalar α]

def tolerance (n : Nat) : α := ofNat n * epsilon

/-- `x` and `y` differ by at most `n` units relative to both of them. -/
def closeWithin (n : Nat) (x y : α) : Bool :=
  if x == y then true
  else
    let diff := abs (x - y)
    let tol : α := tolerance n
    if x * y == 0.0 then diff < tol * tol
    else diff ≤ tol * abs x && diff ≤ tol * abs y

/-- `x` and `y` differ by at most `n` units relative to one of them. -/
def closeEnoughWithin (n : Nat) (x y : α) : Bool :=
  if x == y then true
  else
    let diff := abs (x - y)
    let tol : α := tolerance n
    if x * y == 0.0 then diff < tol * tol
    else diff ≤ tol * abs x || diff ≤ tol * abs y

def defaultUnits : Nat := 42

def close (x y : α) : Bool := closeWithin defaultUnits x y

def closeEnough (x y : α) : Bool := closeEnoughWithin defaultUnits x y

end RateCurves.Scalar
