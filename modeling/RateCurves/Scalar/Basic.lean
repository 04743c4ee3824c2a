/-!
# Scalars

The numbers that rates, times and discount factors are made of. Every formula of the library is
stated once over `Scalar`; the doubles are one instance of it, and any ordered field with an
exponential and a logarithm is another. Comparisons are written so that they say what happens to a
value that is not a number.
-/

namespace RateCurves

/-- Numbers with arithmetic, a decidable order, decimal literals, powers and logarithms. -/
class Scalar (α : Type) extends
    Add α, Sub α, Mul α, Div α, Neg α, LT α, LE α, BEq α, OfScientific α where
  decLt : DecidableLT α
  decLe : DecidableLE α
  ofInt : Int → α
  exp : α → α
  ln : α → α
  pow : α → α → α

attribute [reducible] Scalar.decLt Scalar.decLe
attribute [instance] Scalar.decLt Scalar.decLe

instance : Scalar Float where
  decLt := inferInstance
  decLe := inferInstance
  ofInt := Float.ofInt
  exp := Float.exp
  ln := Float.log
  pow := Float.pow

namespace Scalar

variable {α : Type} [Scalar α]

def ofNat (n : Nat) : α := ofInt n

/-- The distance from one to the next double, `2 ^ -52`. -/
def epsilon : α := 1.0 / 4503599627370496.0

def abs (x : α) : α := if x < 0.0 then -x else x

/-- Holds of the one kind of value that differs from itself. -/
def isNaN (x : α) : Bool := !(x == x)

/-- Holds unless `x` is infinite or not a number. -/
def isFinite (x : α) : Bool := x - x == 0.0

/-- The larger of two values; a value that is not a number gives way to the other. -/
def max (x y : α) : α :=
  if isNaN x then y else if isNaN y then x else if x < y then y else x

def min (x y : α) : α :=
  if isNaN x then y else if isNaN y then x else if y < x then y else x

/-- The exponential less one, without cancellation near zero: there the rounded exponential `u` is
corrected by the ratio of `x` to the logarithm of `u`. -/
def expMinusOne (x : α) : α :=
  let u := exp x
  if abs x ≤ 1.0 then
    if u == 1.0 then x else (u - 1.0) * x / ln u
  else u - 1.0

def sum (xs : List α) : α := xs.foldl (· + ·) 0.0

end Scalar

end RateCurves
