import RateCurves.Failure.Basic
import RateCurves.Scalar.Closeness

/-!
# Objectives and their evaluation

An objective is a function that may fail and may keep a state of its own from one evaluation to the
next. A search has a budget of evaluations: `evaluate` refuses to go beyond it, and treats a value
that is not a number as a failure.
-/

namespace RateCurves

open Scalar

/-- A computation with a state of type `σ` that may fail; the state outlives a failure. -/
abbrev Trial (σ α β : Type) := ExceptT (Failure α) (StateM σ) β

abbrev Objective (σ α : Type) := α → Trial σ α α

variable {σ α : Type} [Scalar α]

namespace Trial

def ofOutcome {β : Type} (outcome : Outcome α β) : Trial σ α β := fun s => (outcome, s)

end Trial

namespace Objective

def ofFunction (f : α → Outcome α α) : Objective σ α := fun x => Trial.ofOutcome (f x)

/-- The same objective, which also keeps the points it is evaluated at, the latest first. -/
def recorded (f : Objective σ α) : Objective (σ × List α) α := fun x (s, points) =>
  let (outcome, s) := f x s
  (outcome, s, x :: points)

/-- The value of `f` at `x` with `left` evaluations left of the budget. -/
def evaluate (f : Objective σ α) (budget : Nat) : (left : Nat) → (x : α) → Trial σ α α
  | 0, _ => throw (.budgetExhausted budget)
  | _ + 1, x => do
    let y ← f x
    if isNaN y then throw (.notANumberAt x)
    return y

end Objective

/-- A count of evaluations with a limit. -/
structure Evaluator where
  count : Nat
  max : Nat

namespace Evaluator

def fresh (max : Nat) : Evaluator := ⟨0, max⟩

/-- The value of `f` at `x`, and the evaluator afterwards; a refused evaluation is not counted. -/
def call (e : Evaluator) (f : Objective σ α) (x : α) (s : σ) : (Outcome α α × σ) × Evaluator :=
  (f.evaluate e.max (e.max - e.count) x s,
    if e.count < e.max then { e with count := e.count + 1 } else e)

def exhausted (e : Evaluator) : Failure α := .budgetExhausted e.max

def text (e : Evaluator) : String := s!"Evaluator \x7b count: {e.count}, max: {e.max} \x7d"

end Evaluator

end RateCurves
