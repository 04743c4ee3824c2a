/-!
# Observer lists

The observers of one object, in the order of their registration and without repetition. An entry
whose observer is gone stays until the next registration or notification removes it.
-/

namespace RateCurves

/-- Registered observers, some of which may be gone. -/
structure Registry (κ : Type) where
  entries : List κ := []

namespace Registry

variable {κ : Type}

def prune (alive : κ → Bool) (r : Registry κ) : Registry κ := ⟨r.entries.filter alive⟩

variable [DecidableEq κ]

/-- Prunes, then appends `observer` unless it is listed. -/
def register (alive : κ → Bool) (observer : κ) (r : Registry κ) : Registry κ :=
  let kept := r.prune alive
  if observer ∈ kept.entries then kept else ⟨kept.entries ++ [observer]⟩

def unregister (observer : κ) (r : Registry κ) : Registry κ :=
  ⟨r.entries.filter (· ≠ observer)⟩

/-- The number of entries, those of observers that are gone included. -/
def size (r : Registry κ) : Nat := r.entries.length

def text (r : Registry κ) : String := s!"ObservableImpl \x7b observers: {r.size} \x7d"

end Registry

end RateCurves
