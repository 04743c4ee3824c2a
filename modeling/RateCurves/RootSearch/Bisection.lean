import RateCurves.RootSearch.Method

/-!
# Bisection

The search keeps an end where the objective is not positive and a signed width; each step halves
the width and moves the end to the middle unless the objective is positive there.
-/

namespace RateCurves.Bisection

open Scalar

variable {α : Type} [Scalar α]

/-- An end of the interval and the signed distance to the other one, where the objective is
positive. -/
structure State (α : Type) where
  root : α
  width : α

/-- Starts from the end where the objective is negative. -/
def start (b : Bracket α) : State α :=
  if b.atLow < 0.0 then ⟨b.low, b.high - b.low⟩ else ⟨b.high, b.low - b.high⟩

def point (s : State α) : α := s.root + s.width / 2.0

/-- Stops at a middle that is a root, or once the halved width is below the accuracy. -/
def absorb (accuracy : α) (s : State α) (value : α) : Verdict (State α) α :=
  let width := s.width / 2.0
  let middle := s.root + width
  let root := if value ≤ 0.0 then middle else s.root
  if close value 0.0 then .root middle
  else if abs width < accuracy then .root root
  else .next ⟨root, width⟩

def method : Method α := { State := State α, start, point, absorb }

end RateCurves.Bisection
