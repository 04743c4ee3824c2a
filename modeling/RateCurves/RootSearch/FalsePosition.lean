import RateCurves.RootSearch.Method

/-!
# False position

The search keeps an end where the objective is negative and one where it is positive, and looks
where the chord between them crosses zero. It stops when an end moves by less than the accuracy.
-/

namespace RateCurves.FalsePosition

open Scalar

variable {α : Type} [Scalar α]

/-- The end where the objective is negative and the end where it is positive, with its values. -/
structure State (α : Type) where
  negative : α
  atNegative : α
  positive : α
  atPositive : α

/-- Sorts the ends of the bracket by the sign of the objective. -/
def start (b : Bracket α) : State α :=
  if b.atLow < 0.0 then ⟨b.low, b.atLow, b.high, b.atHigh⟩
  else ⟨b.high, b.atHigh, b.low, b.atLow⟩

/-- The zero of the chord between the ends. -/
def point (s : State α) : α :=
  s.negative + (s.positive - s.negative) * s.atNegative / (s.atNegative - s.atPositive)

/-- Replaces the end on the side of the value. -/
def absorb (accuracy : α) (s : State α) (value : α) : Verdict (State α) α :=
  let root := point s
  let moved := if value < 0.0 then s.negative - root else s.positive - root
  let next : State α :=
    if value < 0.0 then { s with negative := root, atNegative := value }
    else { s with positive := root, atPositive := value }
  if abs moved < accuracy || value == 0.0 then .root root else .next next

def method : Method α := { State := State α, start, point, absorb }

end RateCurves.FalsePosition
