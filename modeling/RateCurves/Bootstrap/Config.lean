import RateCurves.Failure.Basic

/-!
# Bootstrap settings

How exactly the nodes of a curve are solved for, how often, and whether rates may be negative.
-/

namespace RateCurves

variable {α : Type} [Scalar α]

structure BootstrapConfig (α : Type) [Scalar α] where
  accuracy : α := 1e-12
  maxIterations : Nat := 25
  negativeRates : Bool := true

namespace BootstrapConfig

/-- The accuracy is positive and finite, and there is at least one pass. -/
def validate (config : BootstrapConfig α) : Outcome α Unit := do
  Outcome.require (0.0 < config.accuracy && Scalar.isFinite config.accuracy)
    (.accuracyNotPositive config.accuracy)
  Outcome.require (1 ≤ config.maxIterations) .noIterations

end BootstrapConfig

end RateCurves
