import Mathlib
import RateCurves.Proofs.Failure.Outcome
import RateCurves.Proofs.Interpolation.Slopes
import RateCurves.Curve.Kind

/-!
# Discount factors, zero yields and forwards agree

Whatever the nodes hold, the three quantities of a curve describe one thing, in exact arithmetic: the zero
yield times the time is minus the logarithm of the discount factor, and the forward is the right
derivative of that. Up to the last node this comes from the slopes of the scheme
(`CurveKind.forwardAt_inside`), from the last node on from the flat forward
(`CurveKind.discountAt_past`). At the last node the discount factor is continuous from the left, but for
the jump that the forward-flat scheme makes there (`CurveKind.discountAt_left_iff`).
-/

namespace RateCurves

open Set Filter Topology Scalar

namespace CurveKind

variable {kind : CurveKind} {f : Interpolation ℝ} {t : ℝ}

/-! ## Up to the last node -/

theorem discount_inside (ht : t ≤ f.high) : discount.discountAt f t = f.value t := if_pos ht

theorem zeroYield_inside (ht : t ≤ f.high) : zeroYield.discountAt f t = Real.exp (-(f.value t * t)) := by
  rw [discountAt, zeroOfZeros, if_pos ht, neg_mul]
  rfl

theorem forwardRate_inside (ht : t ≤ f.high) : forwardRate.discountAt f t = Real.exp (-f.primitive t) := by
  rw [discountAt, integralOfForwards, if_pos ht]
  rfl

/-! ## From the last node on -/

theorem forwardAt_past (kind : CurveKind) (hlast : f.value f.high = f.lastValue) (ht : f.high ≤ t) :
    kind.forwardAt f t = kind.forwardAt f f.high := by
  rcases eq_or_lt_of_le ht with rfl | ht
  · rfl
  · cases kind with
    | discount =>
      simp only [forwardAt, forwardOfDiscounts, if_neg (not_le.mpr ht), if_pos (le_refl f.high), hlast]
    | zeroYield =>
      simp only [forwardAt, forwardOfZeros, if_neg (not_le.mpr ht), if_pos (le_refl f.high), hlast]
    | forwardRate =>
      simp only [forwardAt, forwardOfForwards, if_neg (not_le.mpr ht), if_pos (le_refl f.high), hlast]

theorem discountAt_past (kind : CurveKind) (hhigh : 0 < f.high) (hlast : f.value f.high = f.lastValue)
    (ht : f.high ≤ t) : kind.discountAt f t =
      kind.discountAt f f.high * Real.exp (-kind.forwardAt f f.high * (t - f.high)) := by
  rcases eq_or_lt_of_le ht with rfl | ht
  · rw [sub_self, mul_zero, Real.exp_zero, mul_one]
  have hpast := not_le.mpr ht
  cases kind with
  | discount =>
    simp only [discountAt, discountOfDiscounts, forwardAt, forwardOfDiscounts, if_neg hpast,
      if_pos (le_refl f.high), hlast]
    rfl
  | zeroYield =>
    have hne : t ≠ 0 := (hhigh.trans ht).ne'
    simp only [discountAt, zeroOfZeros, forwardAt, forwardOfZeros, if_neg hpast, if_pos (le_refl f.high),
      hlast]
    show Real.exp _ = Real.exp _ * Real.exp _
    rw [← Real.exp_add]
    congr 1
    field_simp
    ring
  | forwardRate =>
    simp only [discountAt, integralOfForwards, forwardAt, forwardOfForwards, if_neg hpast,
      if_pos (le_refl f.high), hlast]
    show Real.exp _ = Real.exp _ * Real.exp _
    rw [← Real.exp_add]
    congr 1
    ring

/-! ## The zero yield -/

theorem zeroAt_zero (kind : CurveKind) (hhigh : 0 < f.high) : kind.zeroAt f 0 = kind.forwardAt f 0 := by
  cases kind with
  | discount | forwardRate => simp [zeroAt, forwardAt]
  | zeroYield => simp [zeroAt, forwardAt, zeroOfZeros, forwardOfZeros, if_pos hhigh.le]

theorem zeroAt_mul (hstart : kind.discountAt f 0 = 1) :
    kind.zeroAt f t * t = -Real.log (kind.discountAt f t) := by
  by_cases ht : t = 0
  · rw [ht, hstart, mul_zero, Real.log_one, neg_zero]
  cases kind with
  | discount =>
    simp only [zeroAt, lit_zero, beq_false_of_ne ht, Bool.false_eq_true, if_false]
    exact div_mul_cancel₀ _ ht
  | zeroYield =>
    have hlog : Real.log (zeroYield.discountAt f t) = -zeroOfZeros f t * t := Real.log_exp _
    rw [hlog, neg_mul, neg_neg, zeroAt]
  | forwardRate =>
    have hlog : Real.log (forwardRate.discountAt f t) = -integralOfForwards f t := Real.log_exp _
    simp only [zeroAt, lit_zero, beq_false_of_ne ht, Bool.false_eq_true, if_false]
    rw [hlog, neg_neg, div_mul_cancel₀ _ ht]

/-! ## The forward -/

/-- Before the last node the forward is the right derivative because the slopes of the interpolation
are right derivatives. -/
theorem forwardAt_inside (hvalue : HasDerivWithinAt f.value (f.derivative t) (Ici t) t)
    (hprimitive : HasDerivWithinAt f.primitive (f.value t) (Ici t) t) (ht : t < f.high)
    (hpositive : 0 < kind.discountAt f t) :
    HasDerivWithinAt (fun s => -Real.log (kind.discountAt f s)) (kind.forwardAt f t) (Ici t) t := by
  have hinside : ∀ᶠ s in 𝓝[≥] t, s ≤ f.high := by
    filter_upwards [nhdsWithin_le_nhds (gt_mem_nhds ht)] with s hs using le_of_lt hs
  cases kind with
  | discount =>
    have hforward : discount.forwardAt f t = -(f.derivative t) / f.value t := if_pos ht.le
    rw [discount_inside ht.le] at hpositive
    rw [hforward, neg_div]
    refine (hvalue.log hpositive.ne').fun_neg.congr_of_eventuallyEq ?_ ?_
    · filter_upwards [hinside] with s hs
      rw [discount_inside hs]
    · rw [discount_inside ht.le]
  | zeroYield =>
    have hyield {s : ℝ} (hs : s ≤ f.high) : -Real.log (zeroYield.discountAt f s) = f.value s * s := by
      rw [zeroYield_inside hs, Real.log_exp, neg_neg]
    have hforward : zeroYield.forwardAt f t = f.value t + t * f.derivative t := if_pos ht.le
    have hproduct := hvalue.fun_mul (hasDerivWithinAt_id t (Ici t))
    refine (hproduct.congr_of_eventuallyEq ?_ (hyield ht.le)).congr_deriv ?_
    · filter_upwards [hinside] with s hs using hyield hs
    · rw [hforward, id]
      ring
  | forwardRate =>
    have harea {s : ℝ} (hs : s ≤ f.high) : -Real.log (forwardRate.discountAt f s) = f.primitive s := by
      rw [forwardRate_inside hs, Real.log_exp, neg_neg]
    have hforward : forwardRate.forwardAt f t = f.value t := if_pos ht.le
    rw [hforward]
    refine hprimitive.congr_of_eventuallyEq ?_ (harea ht.le)
    filter_upwards [hinside] with s hs using harea hs

/-- From the last node on the forward is the right derivative because it is flat. -/
theorem forwardAt_outside (hhigh : 0 < f.high) (hlast : f.value f.high = f.lastValue) (ht : f.high ≤ t)
    (hpositive : 0 < kind.discountAt f t) :
    HasDerivWithinAt (fun s => -Real.log (kind.discountAt f s)) (kind.forwardAt f t) (Ici t) t := by
  have hend : kind.discountAt f f.high ≠ 0 := by
    rw [discountAt_past kind hhigh hlast ht] at hpositive
    exact (pos_of_mul_pos_left hpositive (Real.exp_pos _).le).ne'
  have hlinear {s : ℝ} (hs : s ∈ Ici t) : -Real.log (kind.discountAt f s) =
      kind.forwardAt f f.high * (s - f.high) - Real.log (kind.discountAt f f.high) := by
    rw [discountAt_past kind hhigh hlast (ht.trans hs), Real.log_mul hend (Real.exp_ne_zero _),
      Real.log_exp]
    ring
  have hline := (((hasDerivAt_id t).sub_const f.high).const_mul (kind.forwardAt f f.high)).sub_const
    (Real.log (kind.discountAt f f.high))
  rw [forwardAt_past kind hlast ht]
  refine (hline.hasDerivWithinAt.congr (fun s hs => hlinear hs) (hlinear self_mem_Ici)).congr_deriv ?_
  rw [mul_one]

/-! ## The last node from the left -/

/-- The discount factor is as continuous as the value or the primitive it is read off. -/
theorem discountAt_left_iff (kind : CurveKind) (hhigh : 0 < f.high)
    (hprimitive : ContinuousWithinAt f.primitive (Iic f.high) f.high) :
    ContinuousWithinAt (kind.discountAt f) (Iic f.high) f.high ↔
      kind = .forwardRate ∨ ContinuousWithinAt f.value (Iic f.high) f.high := by
  cases kind with
  | discount =>
    have hinside : ∀ s ∈ Iic f.high, discount.discountAt f s = f.value s :=
      fun s hs => discount_inside hs
    rw [continuousWithinAt_congr_of_mem hinside self_mem_Iic]
    exact ⟨.inr, fun h => h.resolve_left (by decide)⟩
  | zeroYield =>
    have hinside : ∀ s ∈ Iic f.high, zeroYield.discountAt f s = Real.exp (-(f.value s * s)) :=
      fun s hs => zeroYield_inside hs
    rw [continuousWithinAt_congr_of_mem hinside self_mem_Iic]
    constructor
    · -- around the last node the time is positive, so the value can be read back
      intro h
      right
      have hback {s : ℝ} (hs : 0 < s) : f.value s = -Real.log (Real.exp (-(f.value s * s))) / s := by
        rw [Real.log_exp, neg_neg, mul_div_cancel_right₀ _ hs.ne']
      have hyield := (h.log (Real.exp_ne_zero _)).neg.div continuousWithinAt_id hhigh.ne'
      refine hyield.congr_of_eventuallyEq ?_ (hback hhigh)
      filter_upwards [nhdsWithin_le_nhds (lt_mem_nhds hhigh)] with s hs using hback hs
    · intro h
      exact ((h.resolve_left (by decide)).mul continuousWithinAt_id).neg.rexp
  | forwardRate =>
    have hinside : ∀ s ∈ Iic f.high, forwardRate.discountAt f s = Real.exp (-f.primitive s) :=
      fun s hs => forwardRate_inside hs
    rw [continuousWithinAt_congr_of_mem hinside self_mem_Iic]
    exact ⟨fun _ => .inl rfl, fun _ => hprimitive.neg.rexp⟩

/-! ## Curves -/

theorem discountAt_zero (kind : CurveKind) (hhigh : 0 < f.high) (hprimitive : f.primitive 0 = 0)
    (hfirst : kind = .discount → f.value 0 = 1) : kind.discountAt f 0 = 1 := by
  cases kind with
  | discount => rw [discount_inside hhigh.le, hfirst rfl]
  | zeroYield => rw [zeroYield_inside hhigh.le, mul_zero, neg_zero, Real.exp_zero]
  | forwardRate => rw [forwardRate_inside hhigh.le, hprimitive, neg_zero, Real.exp_zero]

/-- **Discount factors, zero yields and forwards agree.** On a curve that starts at time zero, with the
discount factor one there, the linear, log-linear and cubic schemes give a zero yield that is the mean and
a forward that is the right derivative of minus the logarithm of the discount factor, wherever that is
positive. Under every scheme the forward is flat from the last node on, and the discount factor has no
jump there unless a forward-flat step of discount factors or zero yields ends at another value. -/
theorem rates_agree (kind : CurveKind) {scheme : Scheme} {times data : List ℝ}
    (fitted : scheme.fit times data = .ok f) (start : f.nodes.x 0 = 0) :
    (scheme.isSmooth = true → (kind = .discount → f.nodes.y 0 = 1) →
      kind.discountAt f 0 = 1 ∧ kind.zeroAt f 0 = kind.forwardAt f 0 ∧
      ∀ t, 0 < kind.discountAt f t →
        kind.zeroAt f t * t = -Real.log (kind.discountAt f t) ∧
        HasDerivWithinAt (fun s => -Real.log (kind.discountAt f s)) (kind.forwardAt f t) (Ici t) t) ∧
    (∀ t, f.high ≤ t → kind.forwardAt f t = kind.forwardAt f f.high ∧
      kind.discountAt f t =
        kind.discountAt f f.high * Real.exp (-kind.forwardAt f f.high * (t - f.high))) ∧
    (ContinuousWithinAt (kind.discountAt f) (Iic f.high) f.high ↔
      (scheme = .forwardFlat → kind = .forwardRate ∨
        f.nodes.y (f.nodes.final - 1) = f.nodes.y f.nodes.final)) := by
  obtain ⟨nodes, -, hf⟩ := Outcome.bind_ok.mp fitted
  obtain rfl := Scheme.interpolate_nodes hf
  -- there are two nodes at least, so the last one lies after time zero
  have hhigh : 0 < f.high := start ▸ f.nodes.x_lt f.nodes.final_pos f.nodes.final_lt
  have hlast := Scheme.interpolate_high hf
  have hzero : f.value 0 = f.nodes.y 0 := by
    rw [← Scheme.interpolate_x hf f.nodes.first_lt, start]
  have hprimitive : f.primitive 0 = 0 := start ▸ Scheme.interpolate_first hf
  obtain ⟨hprimitiveLeft, hvalueLeft⟩ :
      ContinuousWithinAt f.primitive (Iic f.high) f.high ∧
        (ContinuousWithinAt f.value (Iic f.high) f.high ↔
          (scheme = .forwardFlat → f.nodes.y (f.nodes.final - 1) = f.nodes.y f.nodes.final)) :=
    Scheme.interpolate_left hf
  refine ⟨fun hsmooth hone => ?_, fun t ht => ?_, ?_⟩
  · have hstart := discountAt_zero kind hhigh hprimitive fun hkind => hzero.trans (hone hkind)
    refine ⟨hstart, zeroAt_zero kind hhigh, fun t hpositive => ⟨zeroAt_mul hstart, ?_⟩⟩
    rcases lt_or_ge t f.high with hinside | hpast
    · obtain ⟨hvalueRight, hprimitiveRight⟩ := Scheme.interpolate_right hsmooth hf t
      exact forwardAt_inside hvalueRight hprimitiveRight hinside hpositive
    · exact forwardAt_outside hhigh hlast hpast hpositive
  · exact ⟨forwardAt_past kind hlast ht, discountAt_past kind hhigh hlast ht⟩
  · rw [discountAt_left_iff kind hhigh hprimitiveLeft, hvalueLeft]
    tauto

theorem fit_halving (scheme : Scheme) (hscheme : scheme ≠ .logLinear) :
    ∃ f, scheme.fit [(0 : ℝ), 1] [1, 1 / 2] = .ok f ∧ f.nodes.x 0 = 0 ∧ f.nodes.y 0 = 1 ∧
      f.nodes.final = 1 ∧ f.high = 1 ∧ f.lastValue = 1 / 2 := by
  have hincreasing : [(0 : ℝ), 1].Pairwise (· < ·) := by norm_num
  have hsizes : [(0 : ℝ), 1].length = [(1 : ℝ), 1 / 2].length := rfl
  obtain ⟨f, fitted, hx, hy⟩ :=
    Scheme.fit_exists hsizes le_rfl hincreasing fun hlog => absurd hlog hscheme
  have hsize : f.nodes.size = 2 := congrArg List.length hx
  have hfinal : f.nodes.final = 1 := by rw [Nodes.final, hsize]
  have hhigh : f.high = f.nodes.x f.nodes.final := rfl
  refine ⟨f, fitted, ?_, ?_, hfinal, ?_, ?_⟩
  · simp [Nodes.x, Axis.value, hx]
  · simp [Nodes.y, hy]
  · simp [hhigh, hfinal, Nodes.x, Axis.value, hx]
  · simp [Interpolation.lastValue, hfinal, Nodes.y, hy]

/-- The linear scheme turns them into a zero yield of `log 2` at the last node. -/
theorem rates_agree_halving : ∃ f, Scheme.linear.fit [(0 : ℝ), 1] [1, 1 / 2] = .ok f ∧ f.nodes.x 0 = 0 ∧
    f.nodes.y 0 = 1 ∧ 0 < discount.discountAt f 1 ∧ discount.zeroAt f 1 = Real.log 2 ∧
    HasDerivWithinAt (fun s => -Real.log (discount.discountAt f s)) (discount.forwardAt f 1) (Ici 1) 1 := by
  obtain ⟨f, fitted, start, hone, -, hhigh, hlast⟩ := fit_halving .linear (by decide)
  obtain ⟨nodes, -, hf⟩ := Outcome.bind_ok.mp fitted
  obtain rfl := Scheme.interpolate_nodes hf
  have hend : discount.discountAt f 1 = 1 / 2 := by
    rw [discount_inside hhigh.ge, ← hlast, ← hhigh]
    exact Scheme.interpolate_high hf
  have hpositive : 0 < discount.discountAt f 1 := by norm_num [hend]
  obtain ⟨-, -, agree⟩ := (rates_agree discount fitted start).1 rfl fun _ => hone
  obtain ⟨hzero, hforward⟩ := agree 1 hpositive
  refine ⟨f, fitted, start, hone, hpositive, ?_, hforward⟩
  rwa [mul_one, hend, one_div, Real.log_inv, neg_neg] at hzero

/-- The forward-flat scheme keeps the discount factor at `1` until it jumps at the last node. -/
theorem discountAt_jump : ∃ f, Scheme.forwardFlat.fit [(0 : ℝ), 1] [1, 1 / 2] = .ok f ∧
    f.nodes.x 0 = 0 ∧ f.nodes.y 0 = 1 ∧ 0 < f.lastValue ∧
    ¬ContinuousWithinAt (discount.discountAt f) (Iic f.high) f.high := by
  obtain ⟨f, fitted, start, hone, hfinal, hhigh, hlast⟩ := fit_halving .forwardFlat (by decide)
  obtain ⟨nodes, -, hf⟩ := Outcome.bind_ok.mp fitted
  obtain rfl := Scheme.interpolate_nodes hf
  refine ⟨f, fitted, start, hone, by norm_num [hlast], fun hcontinuous => ?_⟩
  obtain ⟨hprimitiveLeft, hvalueLeft⟩ := Scheme.interpolate_left hf
  have hpositive : 0 < f.high := by norm_num [hhigh]
  have hvalue := ((discountAt_left_iff discount hpositive hprimitiveLeft).mp hcontinuous).resolve_left
    (by decide)
  have hstep := hvalueLeft.mp hvalue rfl
  change f.nodes.y (f.nodes.final - 1) = f.lastValue at hstep
  rw [hfinal, hone, hlast] at hstep
  norm_num at hstep

end CurveKind

end RateCurves
