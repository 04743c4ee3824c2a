import RateCurves.RootSearch.Objective

/-!
# Search methods

A bracketing method is a rule for where to look next and for what to make of the value found there.
`Method.search` runs a method under a budget of evaluations, which is also what bounds it.
-/

namespace RateCurves

/-- An interval with a guess inside and the values of the objective at its ends. -/
structure Bracket (α : Type) where
  low : α
  high : α
  atLow : α
  atHigh : α
  guess : α

/-- What a value means to a method: a root has been found, or the search goes on. -/
inductive Verdict (State α : Type) where
  | root (x : α)
  | next (state : State)

/-- A bracketing method: its states, the first of them, where each state looks, and how the value
found there is taken in at a given accuracy. -/
structure Method (α : Type) where
  State : Type
  start : Bracket α → State
  point : State → α
  absorb : α → State → α → Verdict State α

namespace Method

variable {σ α : Type} [Scalar α]

/-- Evaluates and absorbs until a root is found, with `left` evaluations left of the budget. -/
def search (method : Method α) (f : Objective σ α) (accuracy : α) (budget : Nat) :
    (left : Nat) → (state : method.State) → Trial σ α α
  | 0, _ => throw (.budgetExhausted budget)
  | left + 1, state => do
    let y ← f.evaluate budget (left + 1) (method.point state)
    match method.absorb accuracy state y with
    | .root x => return x
    | .next state => search method f accuracy budget left state

end Method

end RateCurves
