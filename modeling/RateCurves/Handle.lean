/-!
# Handles

A handle names an object that others may name too, or nothing at all.
-/

namespace RateCurves

/-- A name of a shared object, or null. -/
structure Handle (κ : Type) where
  target? : Option κ
  deriving DecidableEq

namespace Handle

variable {κ : Type}

def null : Handle κ := ⟨none⟩

def of (target : κ) : Handle κ := ⟨some target⟩

def isEmpty (h : Handle κ) : Bool := h.target?.isNone

/-- Both handles name the same object. -/
def shares [DecidableEq κ] (a b : Handle κ) : Bool :=
  a.target?.isSome && decide (a.target? = b.target?)

/-- The text of a handle, given that of the objects. -/
def text (describe : κ → String) (h : Handle κ) : String :=
  match h.target? with
  | some target => "Handle(" ++ describe target ++ ")"
  | none => "Handle(null)"

end Handle

end RateCurves
