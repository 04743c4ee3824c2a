import RateCurves.Observation.Registry

/-!
# Broadcasts

One observer list with its observers. A notification updates the observers that are listed and
alive when it starts, each once and in order; an update may itself change the list, which counts
from the next notification on.
-/

namespace RateCurves

/-- A change of the list that an observer makes from inside its update. -/
inductive Change (κ : Type) where
  | register (other : κ)
  | unregister (other : κ)

/-- An observer list, the observers alive, what each does when updated, and all updates so far. -/
structure Broadcast (κ : Type) where
  registry : Registry κ := {}
  living : List κ := []
  reaction : κ → List (Change κ) := fun _ => []
  updates : List κ := []

inductive Event (κ : Type) where
  | create (observer : κ)
  | drop (observer : κ)
  | react (observer : κ) (changes : List (Change κ))
  | register (observer : κ)
  | unregister (observer : κ)
  | notify

namespace Broadcast

variable {κ : Type} [DecidableEq κ]

def alive (b : Broadcast κ) (observer : κ) : Bool := observer ∈ b.living

def apply (b : Broadcast κ) : Change κ → Broadcast κ
  | .register other => { b with registry := b.registry.register b.alive other }
  | .unregister other => { b with registry := b.registry.unregister other }

/-- Updates one observer: the update is noted, then the observer makes its changes. -/
def update (b : Broadcast κ) (observer : κ) : Broadcast κ :=
  (b.reaction observer).foldl apply { b with updates := b.updates ++ [observer] }

/-- Prunes the list and updates the observers then listed. -/
def notify (b : Broadcast κ) : Broadcast κ :=
  let pruned := b.registry.prune b.alive
  pruned.entries.foldl update { b with registry := pruned }

def step (b : Broadcast κ) : Event κ → Broadcast κ
  | .create observer => { b with living := b.living ++ [observer] }
  | .drop observer => { b with living := b.living.filter (· ≠ observer) }
  | .react observer changes =>
    { b with reaction := fun k => if k = observer then changes else b.reaction k }
  | .register observer => b.apply (.register observer)
  | .unregister observer => b.apply (.unregister observer)
  | .notify => b.notify

def run (b : Broadcast κ) (events : List (Event κ)) : Broadcast κ := events.foldl step b

end Broadcast

end RateCurves
