import Mathlib
import RateCurves.Proofs.Interpolation.Spline

/-!
# Slopes and areas of the schemes

The linear, log-linear and cubic schemes have differentiable pieces, and on each of them the derivative
and the primitive are what they are called (`Nodes.Smooth`). So from the right the value has the given
derivative at every abscissa, and the primitive has the value (`Scheme.interpolate_right`). At the last
node every primitive is continuous from the left, and so is every value but that of the forward-flat
scheme, which keeps the ordinate before up to there (`Scheme.interpolate_left`).
-/

namespace RateCurves

open Set Filter Topology Scalar

/-! ## Smooth pieces -/

namespace Nodes

/-- A value, a primitive and a derivative that consist of pieces, with the right derivatives in each
interval. -/
structure Smooth (nodes : Nodes ℝ) (value primitive derivative : ℝ → ℝ)
    (piece area slope : Nat → ℝ → ℝ) : Prop where
  value_eq : value = nodes.pieced piece
  primitive_eq : primitive = nodes.pieced area
  derivative_eq : derivative = nodes.pieced slope
  piece_deriv : ∀ i, i + 1 < nodes.size → ∀ t, HasDerivAt (piece i) (slope i t) t
  area_deriv : ∀ i, i + 1 < nodes.size → ∀ t, HasDerivAt (area i) (piece i t) t

variable {nodes : Nodes ℝ}

theorem locate_near_final (nodes : Nodes ℝ) :
    ∀ᶠ s in 𝓝 (nodes.x nodes.final), nodes.x (nodes.final - 1) < s ∧ nodes.locate s = nodes.final - 1 := by
  have hpred := nodes.final_pred
  have hlt : nodes.x (nodes.final - 1) < nodes.x nodes.final := nodes.x_lt (by omega) nodes.final_lt
  filter_upwards [lt_mem_nhds hlt] with s hs
  exact ⟨hs, nodes.locate_eq ⟨nodes.final_pred_lt, .inr hs.le, .inl nodes.final_pred_succ⟩⟩

theorem pieced_near_final (nodes : Nodes ℝ) (piece : Nat → ℝ → ℝ) :
    nodes.pieced piece =ᶠ[𝓝 (nodes.x nodes.final)] piece (nodes.final - 1) := by
  filter_upwards [nodes.locate_near_final] with s hs
  rw [pieced, hs.2]

namespace Smooth

variable {value primitive derivative : ℝ → ℝ} {piece area slope : Nat → ℝ → ℝ}

theorem value_right (h : nodes.Smooth value primitive derivative piece area slope) (t : ℝ) :
    HasDerivWithinAt value (derivative t) (Ici t) t := by
  rw [h.value_eq, h.derivative_eq]
  exact pieced_right (h.piece_deriv _ (nodes.locate_lt t) t)

theorem primitive_right (h : nodes.Smooth value primitive derivative piece area slope) (t : ℝ) :
    HasDerivWithinAt primitive (value t) (Ici t) t := by
  rw [h.primitive_eq, h.value_eq]
  exact pieced_right (h.area_deriv _ (nodes.locate_lt t) t)

theorem continuousAt_final (h : nodes.Smooth value primitive derivative piece area slope) :
    ContinuousAt value (nodes.x nodes.final) ∧ ContinuousAt primitive (nodes.x nodes.final) := by
  rw [h.value_eq, h.primitive_eq]
  constructor
  · exact (h.piece_deriv _ nodes.final_pred_lt _).continuousAt.congr (nodes.pieced_near_final piece).symm
  · exact (h.area_deriv _ nodes.final_pred_lt _).continuousAt.congr (nodes.pieced_near_final area).symm

end Smooth

/-- The area up to an abscissa in interval `i`, from the integrals over widths. -/
noncomputable def areaUpTo (nodes : Nodes ℝ) (integral : Nat → ℝ → ℝ) (i : Nat) (t : ℝ) : ℝ :=
  areaTo (fun j => integral j (nodes.width j)) i + integral i (t - nodes.x i)

theorem areaUpTo_hasDerivAt {integral : Nat → ℝ → ℝ} {i : Nat} {t d : ℝ}
    (h : HasDerivAt (integral i) d (t - nodes.x i)) : HasDerivAt (nodes.areaUpTo integral i) d t :=
  (h.comp_sub_const t (nodes.x i)).const_add _

end Nodes

/-! ## The linear scheme -/

namespace Linear

variable (nodes : Nodes ℝ)

noncomputable def line (i : Nat) (t : ℝ) : ℝ := nodes.y i + nodes.slope i * (t - nodes.x i)

theorem line_right {i : Nat} (hi : i + 1 < nodes.size) :
    line nodes i (nodes.x (i + 1)) = nodes.y (i + 1) := by
  have hwidth : nodes.x (i + 1) - nodes.x i = nodes.width i := rfl
  have hne := (Cubic.width_pos nodes hi).ne'
  rw [line, hwidth, Nodes.slope, div_mul_cancel₀ _ hne, add_sub_cancel]

theorem integral_hasDerivAt (i : Nat) (dx : ℝ) :
    HasDerivAt (integral nodes i) (nodes.y i + nodes.slope i * dx) dx := by
  unfold integral
  rw [lit_half]
  have hid := hasDerivAt_id dx
  have hline := ((hid.const_mul (1 / 2)).mul_const (nodes.slope i)).const_add (nodes.y i)
  refine (hid.fun_mul hline).congr_deriv ?_
  simp only [id]
  ring

theorem smooth : nodes.Smooth (value nodes) (primitive nodes) (derivative nodes) (line nodes)
    (nodes.areaUpTo (integral nodes)) (fun i _ => nodes.slope i) where
  value_eq := by
    funext t
    have hleft : line nodes (nodes.locate t) (nodes.x (nodes.locate t)) = nodes.y (nodes.locate t) := by
      rw [line, sub_self, mul_zero, add_zero]
    simp only [value]
    split
    · next y h => exact (nodes.eq_of_nodeValue hleft (line_right nodes (nodes.locate_lt t)) h).symm
    · rfl
  primitive_eq := rfl
  derivative_eq := rfl
  piece_deriv i _ t := by
    have hdx : HasDerivAt (fun t => t - nodes.x i) 1 t := (hasDerivAt_id t).sub_const _
    refine ((hdx.const_mul (nodes.slope i)).const_add (nodes.y i)).congr_deriv ?_
    rw [mul_one]
  area_deriv i _ t := Nodes.areaUpTo_hasDerivAt (integral_hasDerivAt nodes i _)

end Linear

/-! ## The log-linear scheme -/

namespace Scalar

theorem expMinusOne_real (x : ℝ) : expMinusOne x = Real.exp x - 1 := by
  have hone : (exp x == (1 : ℝ)) = true ↔ x = 0 := by
    rw [beq_iff_eq]
    exact Real.exp_eq_one_iff x
  unfold expMinusOne
  simp only [lit_one, hone]
  split_ifs with hsmall hzero
  · rw [hzero, Real.exp_zero, sub_self]
  · have hln : ln (exp x) = x := Real.log_exp x
    rw [hln, mul_div_cancel_right₀ _ hzero]
    rfl
  · rfl

end Scalar

namespace LogLinear

variable (nodes : Nodes ℝ)

noncomputable def curve (i : Nat) (t : ℝ) : ℝ :=
  Real.exp (Real.log (nodes.y i) + rate nodes i * (t - nodes.x i))

variable {nodes}

theorem y_pos (h : accepts nodes.ys = true) {i : Nat} (hi : i < nodes.size) : 0 < nodes.y i := by
  have hlength : i < nodes.ys.length := by
    rw [nodes.sizes]
    exact hi
  have hall := List.all_eq_true.mp h _ (List.getElem_mem hlength)
  rw [lit_zero, decide_eq_true_eq] at hall
  rwa [Nodes.y, List.getD_eq_getElem _ _ hlength]

theorem curve_left {i : Nat} (hy : 0 < nodes.y i) : curve nodes i (nodes.x i) = nodes.y i := by
  rw [curve, sub_self, mul_zero, add_zero, Real.exp_log hy]

theorem curve_right {i : Nat} (hi : i + 1 < nodes.size) (hy : 0 < nodes.y (i + 1)) :
    curve nodes i (nodes.x (i + 1)) = nodes.y (i + 1) := by
  have hwidth : nodes.x (i + 1) - nodes.x i = nodes.width i := rfl
  have hne := (Cubic.width_pos nodes hi).ne'
  rw [curve, hwidth, rate, div_mul_cancel₀ _ hne]
  show Real.exp (Real.log (nodes.y i) + (Real.log (nodes.y (i + 1)) - Real.log (nodes.y i))) = _
  rw [add_sub_cancel, Real.exp_log hy]

theorem growthIntegral_hasDerivAt (start b dx : ℝ) :
    HasDerivAt (growthIntegral start b) (start * Real.exp (b * dx)) dx := by
  have hid := hasDerivAt_id dx
  by_cases hb : b = 0
  · subst hb
    have hlinear : growthIntegral start 0 = fun dx => start * dx := by
      funext dx
      simp [growthIntegral]
    rw [hlinear]
    refine (hid.const_mul start).congr_deriv ?_
    simp
  · have hgrowth : growthIntegral start b = fun dx => start * (Real.exp (b * dx) - 1) / b := by
      funext dx
      simp [growthIntegral, hb, expMinusOne_real]
    rw [hgrowth]
    refine ((((hid.const_mul b).exp.sub_const 1).const_mul start).div_const b).congr_deriv ?_
    simp only [id]
    field_simp

theorem smooth (h : accepts nodes.ys = true) :
    nodes.Smooth (value nodes) (primitive nodes) (derivative nodes) (curve nodes)
      (nodes.areaUpTo (integral nodes)) (fun i t => curve nodes i t * rate nodes i) := by
  have value_eq : value nodes = nodes.pieced (curve nodes) := by
    funext t
    have hlt := nodes.locate_lt t
    have hleft := curve_left (y_pos h (Nat.lt_of_succ_lt hlt))
    have hright := curve_right hlt (y_pos h hlt)
    simp only [value]
    split
    · next y hy => exact (nodes.eq_of_nodeValue hleft hright hy).symm
    · rfl
  refine ⟨value_eq, rfl, ?_, fun i _ t => ?_, fun i hi t => Nodes.areaUpTo_hasDerivAt ?_⟩
  · funext t
    rw [derivative, value_eq]
    rfl
  · have hdx : HasDerivAt (fun t => t - nodes.x i) 1 t := (hasDerivAt_id t).sub_const _
    refine ((hdx.const_mul (rate nodes i)).const_add (Real.log (nodes.y i))).exp.congr_deriv ?_
    rw [mul_one]
    rfl
  · refine (growthIntegral_hasDerivAt (nodes.y i) (rate nodes i) _).congr_deriv ?_
    rw [curve, Real.exp_add, Real.exp_log (y_pos h (Nat.lt_of_succ_lt hi))]

end LogLinear

/-! ## The cubic scheme -/

namespace Cubic

variable (nodes : Nodes ℝ)

theorem integral_hasDerivAt (s : Spline ℝ) (i : Nat) (dx : ℝ) :
    HasDerivAt (s.integral i) (s.nodes.y i + dx * (s.a i + dx * (s.b i + dx * s.c i))) dx := by
  unfold Spline.integral
  rw [lit_two, lit_three, lit_four]
  have hid := hasDerivAt_id dx
  have hcubic := ((hid.mul_const (s.c i)).div_const 4).const_add (s.b i / 3)
  have hsquare := (hid.fun_mul hcubic).const_add (s.a i / 2)
  have hline := (hid.fun_mul hsquare).const_add (s.nodes.y i)
  refine (hid.fun_mul hline).congr_deriv ?_
  simp only [id]
  ring

theorem smooth : nodes.Smooth (Spline.ofNodes nodes).value (Spline.ofNodes nodes).primitive
    (Spline.ofNodes nodes).derivative (arc nodes (Spline.ofNodes nodes).moment)
    (nodes.areaUpTo (Spline.ofNodes nodes).integral)
    (arcSlope nodes (Spline.ofNodes nodes).moment) where
  value_eq := value_eq_pieced nodes
  primitive_eq := rfl
  derivative_eq := derivative_eq_pieced nodes
  piece_deriv i _ t := arc_hasDerivAt nodes _ i t
  area_deriv i _ _ := Nodes.areaUpTo_hasDerivAt (integral_hasDerivAt (Spline.ofNodes nodes) i _)

end Cubic

/-! ## The flat schemes at the last node -/

theorem Nodes.areaUpTo_continuous (nodes : Nodes ℝ) (ordinate : Nat → ℝ) (i : Nat) :
    Continuous (nodes.areaUpTo (fun j dx => dx * ordinate j) i) := by
  unfold Nodes.areaUpTo
  fun_prop

namespace BackwardFlat

variable (nodes : Nodes ℝ)

theorem value_near_final : value nodes =ᶠ[𝓝 (nodes.x nodes.final)] fun _ => nodes.y nodes.final := by
  filter_upwards [nodes.locate_near_final] with s hs
  have hfirst : nodes.x 0 ≤ nodes.x (nodes.final - 1) :=
    nodes.axis.value_le (Nat.zero_le _) (lt_of_le_of_lt (Nat.sub_le _ 1) nodes.final_lt)
  have hne : (s == nodes.x (nodes.final - 1)) = false := beq_false_of_ne hs.1.ne'
  rw [value, if_neg (not_le.mpr (hfirst.trans_lt hs.1)), hs.2]
  simp only [hne, nodes.final_pred, Bool.false_eq_true, if_false]

theorem primitive_near_final : primitive nodes =ᶠ[𝓝 (nodes.x nodes.final)]
    nodes.areaUpTo (fun j dx => dx * nodes.y (j + 1)) (nodes.final - 1) := by
  filter_upwards [nodes.locate_near_final] with s hs
  have hfirst : nodes.x 0 ≤ nodes.x (nodes.final - 1) :=
    nodes.axis.value_le (Nat.zero_le _) (lt_of_le_of_lt (Nat.sub_le _ 1) nodes.final_lt)
  rw [primitive, if_neg (not_le.mpr (hfirst.trans_lt hs.1)), hs.2]
  rfl

end BackwardFlat

namespace ForwardFlat

variable (nodes : Nodes ℝ)

/-- Before the last node the value is the ordinate of the node before, so it goes on to the last node
only if that has the same ordinate. -/
theorem value_left_iff : ContinuousWithinAt (value nodes) (Iic (nodes.x nodes.final)) (nodes.x nodes.final) ↔
    nodes.y (nodes.final - 1) = nodes.y nodes.final := by
  have hlast : value nodes (nodes.x nodes.final) = nodes.y nodes.final := if_pos le_rfl
  have hbefore : ∀ᶠ s in 𝓝[<] nodes.x nodes.final, value nodes s = nodes.y (nodes.final - 1) := by
    filter_upwards [nhdsWithin_le_nhds nodes.locate_near_final, self_mem_nhdsWithin] with s hs hlt
    rw [value, if_neg (not_le.mpr hlt), hs.2]
  rw [← continuousWithinAt_Iio_iff_Iic, ContinuousWithinAt, tendsto_congr' hbefore, hlast,
    tendsto_const_nhds_iff]

theorem primitive_near_final : primitive nodes =ᶠ[𝓝[≤] nodes.x nodes.final]
    nodes.areaUpTo (fun j dx => dx * nodes.y j) (nodes.final - 1) := by
  filter_upwards [nhdsWithin_le_nhds nodes.locate_near_final, self_mem_nhdsWithin] with s hs hle
  rw [primitive]
  rcases eq_or_lt_of_le (mem_Iic.mp hle) with rfl | hlt
  · rw [if_pos le_rfl, sub_self, zero_mul, add_zero, ← nodes.final_pred, Nodes.areaTo,
      Nat.add_sub_cancel]
    rfl
  · simp only [if_neg (not_le.mpr hlt), hs.2]
    rfl

end ForwardFlat

/-! ## Schemes -/

namespace Scheme

variable {scheme : Scheme} {nodes : Nodes ℝ} {f : Interpolation ℝ}

theorem accepts_of_interpolate (hf : Scheme.logLinear.interpolate nodes = .ok f) :
    LogLinear.accepts nodes.ys = true ∧
      f = { nodes, value := LogLinear.value nodes, primitive := LogLinear.primitive nodes,
            derivative := LogLinear.derivative nodes,
            secondDerivative := LogLinear.secondDerivative nodes } := by
  simp only [interpolate] at hf
  split at hf
  · next haccepts => exact ⟨haccepts, (Except.ok.inj hf).symm⟩
  · cases hf

/-- The schemes whose value is differentiable inside each interval, with the derivative they give. -/
def isSmooth : Scheme → Bool
  | .linear | .logLinear | .cubic => true
  | .backwardFlat | .forwardFlat => false

theorem interpolate_smooth (hsmooth : scheme.isSmooth = true) (hf : scheme.interpolate nodes = .ok f) :
    ∃ piece area slope, nodes.Smooth f.value f.primitive f.derivative piece area slope := by
  cases scheme with
  | linear =>
    cases hf
    exact ⟨_, _, _, Linear.smooth nodes⟩
  | logLinear =>
    obtain ⟨haccepts, rfl⟩ := accepts_of_interpolate hf
    exact ⟨_, _, _, LogLinear.smooth haccepts⟩
  | cubic =>
    cases hf
    exact ⟨_, _, _, Cubic.smooth nodes⟩
  | backwardFlat | forwardFlat => cases hsmooth

/-- From the right, the value has the given derivative and the primitive has the value. -/
theorem interpolate_right (hsmooth : scheme.isSmooth = true) (hf : scheme.interpolate nodes = .ok f)
    (t : ℝ) : HasDerivWithinAt f.value (f.derivative t) (Ici t) t ∧
      HasDerivWithinAt f.primitive (f.value t) (Ici t) t := by
  obtain ⟨piece, area, slope, h⟩ := interpolate_smooth hsmooth hf
  exact ⟨h.value_right t, h.primitive_right t⟩

/-- At the last node the primitive is continuous from the left, and so is the value unless a
forward-flat step ends there. -/
theorem interpolate_left (hf : scheme.interpolate nodes = .ok f) :
    ContinuousWithinAt f.primitive (Iic (nodes.x nodes.final)) (nodes.x nodes.final) ∧
      (ContinuousWithinAt f.value (Iic (nodes.x nodes.final)) (nodes.x nodes.final) ↔
        (scheme = .forwardFlat → nodes.y (nodes.final - 1) = nodes.y nodes.final)) := by
  have ofSmooth (hsmooth : scheme.isSmooth = true) :
      ContinuousAt f.value (nodes.x nodes.final) ∧ ContinuousAt f.primitive (nodes.x nodes.final) := by
    obtain ⟨piece, area, slope, h⟩ := interpolate_smooth hsmooth hf
    exact h.continuousAt_final
  cases scheme with
  | linear | logLinear | cubic =>
    obtain ⟨hvalue, hprimitive⟩ := ofSmooth rfl
    exact ⟨hprimitive.continuousWithinAt, fun _ => nofun, fun _ => hvalue.continuousWithinAt⟩
  | backwardFlat =>
    cases hf
    have harea := nodes.areaUpTo_continuous (fun j => nodes.y (j + 1)) (nodes.final - 1)
    have hprimitive := harea.continuousAt.congr (BackwardFlat.primitive_near_final nodes).symm
    have hvalue := continuousAt_const.congr (BackwardFlat.value_near_final nodes).symm
    exact ⟨hprimitive.continuousWithinAt, fun _ => nofun, fun _ => hvalue.continuousWithinAt⟩
  | forwardFlat =>
    cases hf
    have harea := nodes.areaUpTo_continuous nodes.y (nodes.final - 1)
    have hnear := ForwardFlat.primitive_near_final nodes
    refine ⟨harea.continuousWithinAt.congr_of_eventuallyEq hnear
      (hnear.self_of_nhdsWithin self_mem_Iic), ?_⟩
    exact (ForwardFlat.value_left_iff nodes).trans ⟨fun h _ => h, fun h => h rfl⟩

theorem interpolate_first (hf : scheme.interpolate nodes = .ok f) : f.primitive (nodes.x 0) = 0 := by
  have hfirst := nodes.first_lt
  cases scheme with
  | linear =>
    cases hf
    exact (Linear.isLocal.primitive_x nodes 0 hfirst).trans lit_zero
  | logLinear =>
    obtain ⟨-, rfl⟩ := accepts_of_interpolate hf
    exact (LogLinear.isLocal.primitive_x nodes 0 hfirst).trans lit_zero
  | backwardFlat =>
    cases hf
    exact (BackwardFlat.isLocal.primitive_x nodes 0 hfirst).trans lit_zero
  | forwardFlat =>
    cases hf
    exact (ForwardFlat.isLocal.primitive_x nodes 0 hfirst).trans lit_zero
  | cubic =>
    cases hf
    have harea := nodes.areaTo_locate (Cubic.Spline.ofNodes nodes).integral (fun _ => zero_mul _) hfirst
    exact harea.trans lit_zero

end Scheme

end RateCurves
