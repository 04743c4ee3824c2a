import RateCurves.RootSearch.Bisection
import RateCurves.RootSearch.Brent
import RateCurves.RootSearch.FalsePosition

/-!
# Solvers

A solver is a method with a budget. `Solver.solve` checks its arguments, looks at both ends of the
bracket, which may already be roots, asks for a sign change between them and for a guess inside,
and then leaves the search to the method.
-/

namespace RateCurves

open Scalar

inductive Algorithm where
  | brent
  | bisection
  | falsePosition
  deriving DecidableEq

namespace Algorithm

def name : Algorithm → String
  | .brent => "Brent"
  | .bisection => "Bisection"
  | .falsePosition => "FalsePosition"

def method {α : Type} [Scalar α] : Algorithm → Method α
  | .brent => Brent.method
  | .bisection => Bisection.method
  | .falsePosition => FalsePosition.method

end Algorithm

/-- A method with the number of evaluations it may spend. -/
structure Solver where
  algorithm : Algorithm := .brent
  budget : Nat := 100

namespace Solver

variable {σ α : Type} [Scalar α]

/-- A root of `f` between `low` and `high`, to the given accuracy but no finer than `epsilon`. -/
def solve (solver : Solver) (f : Objective σ α) (accuracy guess low high : α) : Trial σ α α := do
  Trial.ofOutcome (Outcome.require (0.0 < accuracy) (.accuracyNotPositive accuracy))
  let accuracy := max accuracy epsilon
  Trial.ofOutcome (Outcome.require (low < high) (.bracketReversed low high))
  let atLow ← f.evaluate solver.budget solver.budget low
  if close atLow 0.0 then return low
  let atHigh ← f.evaluate solver.budget (solver.budget - 1) high
  if close atHigh 0.0 then return high
  if 0.0 < atLow * atHigh then throw (.notBracketed low high atLow atHigh)
  Trial.ofOutcome (Outcome.require (low < guess) (.guessTooLow guess low))
  Trial.ofOutcome (Outcome.require (guess < high) (.guessTooHigh guess high))
  let method : Method α := solver.algorithm.method
  method.search f accuracy solver.budget (solver.budget - 2)
    (method.start { low, high, atLow, atHigh, guess })

end Solver

end RateCurves
