import RateCurves.RootSearch.Method

/-!
# Brent's method

The search keeps the best point so far, the one before it and a point across the root. A step
follows the inverse quadratic (or the chord) through them where that stays well inside the bracket
and shrinks the steps fast enough, and halves the bracket otherwise; no step is smaller than the
tolerance.
-/

namespace RateCurves.Brent

open Scalar

variable {α : Type} [Scalar α]

/-- The point `root` to look at next with the two earlier points, their values, and the last two
steps. -/
structure Points (α : Type) where
  root : α
  previous : α
  atPrevious : α
  across : α
  atAcross : α
  step : α
  stepBefore : α

/-- A search that has not looked at its guess yet, or one that is under way. -/
inductive State (α : Type) where
  | opening (bracket : Bracket α)
  | running (points : Points α)

/-- The guess goes on one side and the end across the root from it on the other. -/
def opened (b : Bracket α) (value : α) : Points α :=
  let (previous, atPrevious, across, atAcross) :=
    if value * b.atLow < 0.0 then (b.low, b.atLow, b.low, b.atLow)
    else (b.high, b.atHigh, b.high, b.atHigh)
  let step := b.guess - across
  { root := b.guess, previous, atPrevious, across, atAcross, step, stepBefore := step }

/-- Takes the previous point as the one across when root and across lie on the same side. -/
def rebracket (p : Points α) (value : α) : Points α :=
  if (0.0 < value && 0.0 < p.atAcross) || (value < 0.0 && p.atAcross < 0.0) then
    let step := p.root - p.previous
    { p with across := p.previous, atAcross := p.atPrevious, step, stepBefore := step }
  else p

/-- Makes the point with the smaller value the root; its value comes with it. -/
def order (p : Points α) (value : α) : Points α × α :=
  if abs p.atAcross < abs value then
    ({ p with root := p.across, previous := p.root, atPrevious := value,
              across := p.root, atAcross := value }, p.atAcross)
  else (p, value)

def leastStep (accuracy root : α) : α := 2.0 * epsilon * abs root + 0.5 * accuracy

/-- Numerator and denominator of the step to the zero of the curve through the known points. -/
def interpolated (p : Points α) (value middle : α) : α × α :=
  let s := value / p.atPrevious
  if close p.previous p.across then (2.0 * middle * s, 1.0 - s)
  else
    let q := p.atPrevious / p.atAcross
    let r := value / p.atAcross
    (s * (2.0 * middle * q * (q - r) - (p.root - p.previous) * (r - 1.0)),
      (q - 1.0) * (r - 1.0) * (s - 1.0))

/-- The step to take, and the one that counts as the step before it. -/
def chooseStep (p : Points α) (value tol middle : α) : α × α :=
  if tol ≤ abs p.stepBefore && abs value < abs p.atPrevious then
    let (p₀, q₀) := interpolated p value middle
    let q := if 0.0 < p₀ then -q₀ else q₀
    let p₁ := abs p₀
    -- interpolate only where that stays in the bracket and at least halves the step before the last
    let inside := 3.0 * middle * q - abs (tol * q)
    let shrinking := abs (p.stepBefore * q)
    if 2.0 * p₁ < min inside shrinking then (p₁ / q, p.step) else (middle, middle)
  else (middle, middle)

/-- What the value at the root means: the bracket is within tolerance or the value is zero, or the
next point is chosen. -/
def turn (accuracy : α) (p : Points α) (value : α) : Verdict (State α) α :=
  let (p, value) := order (rebracket p value) value
  let tol := leastStep accuracy p.root
  let middle := 0.5 * (p.across - p.root)
  if abs middle ≤ tol || close value 0.0 then .root p.root
  else
    let (step, stepBefore) := chooseStep p value tol middle
    let move := if tol < abs step then step else if 0.0 < middle then tol else -tol
    .next (.running { p with root := p.root + move, previous := p.root, atPrevious := value,
                             step, stepBefore })

def point : State α → α
  | .opening b => b.guess
  | .running p => p.root

def absorb (accuracy : α) : State α → α → Verdict (State α) α
  | .opening b, value => turn accuracy (opened b value) value
  | .running p, value => turn accuracy p value

def method : Method α := { State := State α, start := .opening, point, absorb }

end RateCurves.Brent
