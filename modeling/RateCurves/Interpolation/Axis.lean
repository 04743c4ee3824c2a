import RateCurves.Failure.Basic
import RateCurves.Scalar.Closeness

/-!
# Axes and interval search

An axis is a list of at least two finite values in strictly increasing order. `locate` finds the
interval of an axis that a value belongs to; values outside belong to the first or last interval.
-/

namespace RateCurves

open Scalar

variable {α : Type} [Scalar α]

/-- The interval of `xs` that `x` belongs to: the first one before the first value, the last one
past the last value, and otherwise the one whose left end is the last value not above `x`. -/
def locate (xs : List α) (x : α) : Nat :=
  if x < xs.headD 0.0 then 0
  else if xs.getLastD 0.0 < x then xs.length - 2
  else (xs.dropLast.takeWhile (· ≤ x)).length - 1

/-- The first position whose value is not below its successor. -/
def disorder? : List α → Option Nat
  | a :: b :: rest => if b ≤ a then some 0 else (disorder? (b :: rest)).map (· + 1)
  | _ => none

structure Axis (α : Type) [Scalar α] where
  values : List α
  two_le : 2 ≤ values.length
  finite : values.all isFinite = true
  ordered : disorder? values = none

namespace Axis

/-- The values as an axis, if there are enough of them, all finite and in strict order. -/
def ofList (xs : List α) : Outcome α (Axis α) :=
  if two_le : 2 ≤ xs.length then
    if finite : xs.all isFinite = true then
      match ordered : disorder? xs with
      | none => .ok ⟨xs, two_le, finite, ordered⟩
      | some i => .error (.abscissaeNotIncreasing i (xs.getD i 0.0) (xs.getD (i + 1) 0.0))
    else .error (.abscissaNotFinite xs)
  else .error (.tooFewPoints 2 xs.length)

theorem values_of_ofList {xs : List α} {axis : Axis α} (h : ofList xs = .ok axis) :
    axis.values = xs := by
  unfold ofList at h
  split at h
  · split at h
    · split at h
      · cases h; rfl
      · cases h
    · cases h
  · cases h

def value (axis : Axis α) (i : Nat) : α := axis.values.getD i 0.0

def low (axis : Axis α) : α := axis.value 0

def high (axis : Axis α) : α := axis.value (axis.values.length - 1)

def locate (axis : Axis α) (x : α) : Nat := RateCurves.locate axis.values x

/-- `x` lies between the ends of the axis or is close to one of them. -/
def covers (axis : Axis α) (x : α) : Bool :=
  (axis.low ≤ x && x ≤ axis.high) || close x axis.low || close x axis.high

end Axis

end RateCurves
