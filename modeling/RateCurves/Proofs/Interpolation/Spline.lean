import Mathlib
import RateCurves.Proofs.Interpolation.Elimination
import RateCurves.Proofs.Interpolation.Pieces

/-!
# The natural spline

On each interval the spline is an arc: the cubic with given ordinates and second derivatives at both ends
(`arc`). Arcs meet at the nodes, and so do their second derivatives; their slopes meet at an inner node
exactly if the equation of that node holds (`arcSlope_meet_iff`). So the spline of the moments is twice
continuously differentiable, and a function that is a natural spline through the same nodes has arcs
whose second derivatives solve the system of the moments (`IsNaturalSpline.solves`), which makes it the
same function. `fit_natural_spline` says all this of the cubic scheme.
-/

namespace RateCurves.Cubic

open Set Scalar

/-! ## Natural splines -/

/-- On `S` the function is a polynomial of degree at most three. -/
def IsCubicOn (g : ℝ → ℝ) (S : Set ℝ) : Prop :=
  ∃ k₀ k₁ k₂ k₃ : ℝ, ∀ t ∈ S, g t = k₀ + k₁ * t + k₂ * t ^ 2 + k₃ * t ^ 3

/-- A cubic on each interval that passes through the nodes, is twice continuously differentiable on the
whole line, and has no second derivative at the first and the last node. -/
structure IsNaturalSpline (nodes : Nodes ℝ) (g : ℝ → ℝ) : Prop where
  cubic : ∀ i, i + 1 < nodes.size → IsCubicOn g (Icc (nodes.x i) (nodes.x (i + 1)))
  passes : ∀ k < nodes.size, g (nodes.x k) = nodes.y k
  smooth : ContDiff ℝ 2 g
  first : deriv (deriv g) (nodes.x 0) = 0
  last : deriv (deriv g) (nodes.x nodes.final) = 0

/-- The cubics of the first and the last interval go on outwards. -/
structure GoesOn (nodes : Nodes ℝ) (g : ℝ → ℝ) : Prop where
  before : IsCubicOn g (Iic (nodes.x 1))
  after : IsCubicOn g (Ici (nodes.x (nodes.final - 1)))

/-! ## Arcs -/

variable (nodes : Nodes ℝ) (m : Nat → ℝ)

/-- The cubic over interval `i` with the ordinates of the nodes and the second derivatives `m` at its
ends. -/
noncomputable def arc (i : Nat) (t : ℝ) : ℝ :=
  nodes.y i + (t - nodes.x i) * (nodes.slope i - nodes.width i * (2.0 * m i + m (i + 1)) / 6.0 +
    (t - nodes.x i) * (0.5 * m i + (t - nodes.x i) * ((m (i + 1) - m i) / (6.0 * nodes.width i))))

noncomputable def arcSlope (i : Nat) (t : ℝ) : ℝ :=
  nodes.slope i - nodes.width i * (2.0 * m i + m (i + 1)) / 6.0 +
    (t - nodes.x i) * (2.0 * (0.5 * m i) +
      3.0 * (t - nodes.x i) * ((m (i + 1) - m i) / (6.0 * nodes.width i)))

noncomputable def arcBend (i : Nat) (t : ℝ) : ℝ :=
  2.0 * (0.5 * m i) + 6.0 * (t - nodes.x i) * ((m (i + 1) - m i) / (6.0 * nodes.width i))

theorem arc_eq (i : Nat) (t : ℝ) : arc nodes m i t =
    nodes.y i + (t - nodes.x i) * (nodes.slope i - nodes.width i * (2 * m i + m (i + 1)) / 6 +
      (t - nodes.x i) * (1 / 2 * m i + (t - nodes.x i) * ((m (i + 1) - m i) / (6 * nodes.width i)))) := by
  simp only [arc, lit_two, lit_half, lit_six]

theorem arcSlope_eq (i : Nat) (t : ℝ) : arcSlope nodes m i t =
    nodes.slope i - nodes.width i * (2 * m i + m (i + 1)) / 6 +
      (t - nodes.x i) * (2 * (1 / 2 * m i) +
        3 * (t - nodes.x i) * ((m (i + 1) - m i) / (6 * nodes.width i))) := by
  simp only [arcSlope, lit_two, lit_half, lit_three, lit_six]

theorem arcBend_eq (i : Nat) (t : ℝ) : arcBend nodes m i t =
    2 * (1 / 2 * m i) + 6 * (t - nodes.x i) * ((m (i + 1) - m i) / (6 * nodes.width i)) := by
  simp only [arcBend, lit_two, lit_half, lit_six]

theorem arc_hasDerivAt (i : Nat) (t : ℝ) : HasDerivAt (arc nodes m i) (arcSlope nodes m i t) t := by
  have hdx : HasDerivAt (fun t => t - nodes.x i) 1 t := (hasDerivAt_id t).sub_const _
  rw [funext (arc_eq nodes m i), arcSlope_eq]
  generalize nodes.slope i - nodes.width i * (2 * m i + m (i + 1)) / 6 = a
  generalize 1 / 2 * m i = b
  generalize (m (i + 1) - m i) / (6 * nodes.width i) = c
  have hinner := hdx.fun_mul ((hdx.fun_mul ((hdx.mul_const c).const_add b)).const_add a)
  refine (hinner.const_add (nodes.y i)).congr_deriv ?_
  ring

theorem arcSlope_hasDerivAt (i : Nat) (t : ℝ) :
    HasDerivAt (arcSlope nodes m i) (arcBend nodes m i t) t := by
  have hdx : HasDerivAt (fun t => t - nodes.x i) 1 t := (hasDerivAt_id t).sub_const _
  rw [funext (arcSlope_eq nodes m i), arcBend_eq]
  generalize nodes.slope i - nodes.width i * (2 * m i + m (i + 1)) / 6 = a
  generalize 1 / 2 * m i = b
  generalize (m (i + 1) - m i) / (6 * nodes.width i) = c
  have hinner := hdx.fun_mul (((hdx.const_mul 3).mul_const c).const_add (2 * b))
  refine (hinner.const_add a).congr_deriv ?_
  ring

theorem arcBend_continuous (i : Nat) : Continuous (arcBend nodes m i) := by
  unfold arcBend
  fun_prop

/-! ## The ends of an arc -/

variable {nodes m} {i : Nat}

theorem arc_left (i : Nat) : arc nodes m i (nodes.x i) = nodes.y i := by
  rw [arc, sub_self, zero_mul, add_zero]

theorem arc_right (hi : i + 1 < nodes.size) : arc nodes m i (nodes.x (i + 1)) = nodes.y (i + 1) := by
  have hwidth : nodes.x (i + 1) - nodes.x i = nodes.width i := rfl
  have hslope : nodes.width i * nodes.slope i = nodes.y (i + 1) - nodes.y i :=
    mul_div_cancel₀ _ (width_pos nodes hi).ne'
  have hne := (width_pos nodes hi).ne'
  rw [arc_eq, hwidth]
  field_simp
  linear_combination 12 * hslope

theorem arcSlope_left (i : Nat) :
    arcSlope nodes m i (nodes.x i) = nodes.slope i - nodes.width i * (2 * m i + m (i + 1)) / 6 := by
  rw [arcSlope_eq, sub_self, zero_mul, add_zero]

theorem arcSlope_right (hi : i + 1 < nodes.size) :
    arcSlope nodes m i (nodes.x (i + 1)) = nodes.slope i + nodes.width i * (m i + 2 * m (i + 1)) / 6 := by
  have hwidth : nodes.x (i + 1) - nodes.x i = nodes.width i := rfl
  have hne := (width_pos nodes hi).ne'
  rw [arcSlope_eq, hwidth]
  field_simp
  ring

theorem arcBend_left (i : Nat) : arcBend nodes m i (nodes.x i) = m i := by
  rw [arcBend_eq, sub_self]
  ring

theorem arcBend_right (hi : i + 1 < nodes.size) : arcBend nodes m i (nodes.x (i + 1)) = m (i + 1) := by
  have hwidth : nodes.x (i + 1) - nodes.x i = nodes.width i := rfl
  have hne := (width_pos nodes hi).ne'
  rw [arcBend_eq, hwidth]
  field_simp
  ring

theorem arc_meets : nodes.Meets (arc nodes m) := by
  intro i hi
  rw [arc_right (by omega), arc_left]

theorem arcBend_meets : nodes.Meets (arcBend nodes m) := by
  intro i hi
  rw [arcBend_right (by omega), arcBend_left]

/-- The slopes of neighbouring arcs meet exactly if the equation of the node between them holds. -/
theorem arcSlope_meet_iff (hi : i + 2 < nodes.size) :
    arcSlope nodes m i (nodes.x (i + 1)) = arcSlope nodes m (i + 1) (nodes.x (i + 1)) ↔
      Row nodes m i := by
  rw [arcSlope_right (by omega), arcSlope_left, Row]
  constructor <;> intro h <;> linarith

theorem Solves.arcSlope_meets (h : Solves nodes m) : nodes.Meets (arcSlope nodes m) :=
  fun i hi => (arcSlope_meet_iff hi).mpr (h.row i hi)

/-! ## The spline of the moments -/

section spline

variable (nodes)

theorem value_eq_pieced :
    (Spline.ofNodes nodes).value = nodes.pieced (arc nodes (Spline.ofNodes nodes).moment) := by
  funext t
  simp only [Spline.value]
  split
  · next y h => exact (nodes.eq_of_nodeValue (arc_left _) (arc_right (nodes.locate_lt t)) h).symm
  · rfl

theorem derivative_eq_pieced :
    (Spline.ofNodes nodes).derivative = nodes.pieced (arcSlope nodes (Spline.ofNodes nodes).moment) :=
  rfl

theorem secondDerivative_eq_pieced :
    (Spline.ofNodes nodes).secondDerivative =
      nodes.pieced (arcBend nodes (Spline.ofNodes nodes).moment) :=
  rfl

theorem value_hasDerivAt (t : ℝ) :
    HasDerivAt (Spline.ofNodes nodes).value ((Spline.ofNodes nodes).derivative t) t := by
  rw [value_eq_pieced, derivative_eq_pieced]
  exact Nodes.pieced_hasDerivAt (fun i _ => arc_hasDerivAt nodes _ i) arc_meets
    moment_solves.arcSlope_meets t

theorem derivative_hasDerivAt (t : ℝ) :
    HasDerivAt (Spline.ofNodes nodes).derivative ((Spline.ofNodes nodes).secondDerivative t) t := by
  rw [derivative_eq_pieced, secondDerivative_eq_pieced]
  exact Nodes.pieced_hasDerivAt (fun i _ => arcSlope_hasDerivAt nodes _ i)
    moment_solves.arcSlope_meets arcBend_meets t

theorem secondDerivative_continuous : Continuous (Spline.ofNodes nodes).secondDerivative := by
  rw [secondDerivative_eq_pieced]
  exact Nodes.pieced_continuous (fun i _ => arcBend_continuous nodes _ i) arcBend_meets

theorem deriv_value : deriv (Spline.ofNodes nodes).value = (Spline.ofNodes nodes).derivative :=
  funext fun t => (value_hasDerivAt nodes t).deriv

theorem deriv_derivative :
    deriv (Spline.ofNodes nodes).derivative = (Spline.ofNodes nodes).secondDerivative :=
  funext fun t => (derivative_hasDerivAt nodes t).deriv

theorem value_contDiff : ContDiff ℝ 2 (Spline.ofNodes nodes).value := by
  have hslope : ContDiff ℝ 1 (Spline.ofNodes nodes).derivative := by
    rw [contDiff_one_iff_deriv, deriv_derivative]
    exact ⟨fun t => (derivative_hasDerivAt nodes t).differentiableAt, secondDerivative_continuous nodes⟩
  rw [show (2 : WithTop ℕ∞) = 1 + 1 by norm_num, contDiff_succ_iff_deriv, deriv_value]
  exact ⟨fun t => (value_hasDerivAt nodes t).differentiableAt, by simp, hslope⟩

theorem value_eq_arc {i : Nat} (hi : i + 1 < nodes.size) {t : ℝ} (hleft : i = 0 ∨ nodes.x i ≤ t)
    (hright : i + 2 = nodes.size ∨ t ≤ nodes.x (i + 1)) :
    (Spline.ofNodes nodes).value t = arc nodes (Spline.ofNodes nodes).moment i t := by
  by_cases hend : i + 2 ≠ nodes.size ∧ t = nodes.x (i + 1)
  · rw [hend.2, Spline.value_x nodes hi, arc_right hi]
  · have hbefore : i + 2 = nodes.axis.values.length ∨ t < nodes.x (i + 1) := by
      rw [not_and_or, not_not] at hend
      rcases hend with hlast | hne
      · exact .inl hlast
      · exact hright.imp_right fun hle => lt_of_le_of_ne hle hne
    have hlocate : nodes.locate t = i := nodes.locate_eq ⟨hi, hleft, hbefore⟩
    rw [value_eq_pieced, Nodes.pieced, hlocate]

end spline

/-! ## The spline is natural -/

variable (nodes m) in
theorem arc_isCubicOn (i : Nat) (S : Set ℝ) : IsCubicOn (arc nodes m i) S := by
  rw [funext (arc_eq nodes m i)]
  generalize nodes.slope i - nodes.width i * (2 * m i + m (i + 1)) / 6 = a
  generalize 1 / 2 * m i = b
  generalize (m (i + 1) - m i) / (6 * nodes.width i) = c
  refine ⟨nodes.y i - a * nodes.x i + b * nodes.x i ^ 2 - c * nodes.x i ^ 3,
    a - 2 * b * nodes.x i + 3 * c * nodes.x i ^ 2, b - 3 * c * nodes.x i, c, fun t _ => ?_⟩
  ring

theorem IsCubicOn.congr {f g : ℝ → ℝ} {S : Set ℝ} (h : IsCubicOn f S) (heq : EqOn g f S) :
    IsCubicOn g S := by
  obtain ⟨k₀, k₁, k₂, k₃, hk⟩ := h
  exact ⟨k₀, k₁, k₂, k₃, fun t ht => (heq ht).trans (hk t ht)⟩

variable (nodes) in
theorem value_isNaturalSpline : IsNaturalSpline nodes (Spline.ofNodes nodes).value where
  cubic i hi := (arc_isCubicOn nodes _ i _).congr fun t ht =>
    value_eq_arc nodes hi (.inr ht.1) (.inr ht.2)
  passes k hk := Spline.value_x nodes hk
  smooth := value_contDiff nodes
  first := by
    have htwo := nodes.two_le_size
    have hsucc := nodes.final_succ
    have hlocate : nodes.locate (nodes.x 0) = 0 := by
      rw [nodes.locate_x (by omega), if_neg (by omega)]
    rw [deriv_value, deriv_derivative, secondDerivative_eq_pieced, Nodes.pieced, hlocate, arcBend_left,
      moment_zero]
  last := by
    have hlocate : nodes.locate (nodes.x nodes.final) = nodes.final - 1 := by
      rw [nodes.locate_x nodes.final_lt, if_pos rfl]
    have hend : arcBend nodes (Spline.ofNodes nodes).moment (nodes.final - 1)
        (nodes.x (nodes.final - 1 + 1)) = _ := arcBend_right nodes.final_pred_lt
    rw [nodes.final_pred, moment_final] at hend
    rw [deriv_value, deriv_derivative, secondDerivative_eq_pieced, Nodes.pieced, hlocate, hend]

variable (nodes) in
theorem value_goesOn : GoesOn nodes (Spline.ofNodes nodes).value where
  before := (arc_isCubicOn nodes _ 0 _).congr fun _ ht =>
    value_eq_arc nodes nodes.two_le_size (.inl rfl) (.inr ht)
  after := (arc_isCubicOn nodes _ (nodes.final - 1) _).congr fun _ ht =>
    value_eq_arc nodes nodes.final_pred_lt (.inr ht) (.inl nodes.final_pred_succ)

/-! ## There is no other -/

theorem deriv_eqOn {f g : ℝ → ℝ} {a b : ℝ} (hab : a < b) (hf : Differentiable ℝ f)
    (hg : Differentiable ℝ g) (h : EqOn f g (Icc a b)) : EqOn (deriv f) (deriv g) (Icc a b) := by
  intro t ht
  have hwithin : HasDerivWithinAt f (deriv g t) (Icc a b) t :=
    (hg t).hasDerivAt.hasDerivWithinAt.congr h (h ht)
  exact (uniqueDiffOn_Icc hab t ht).eq_deriv (Icc a b) (hf t).hasDerivAt.hasDerivWithinAt hwithin

/-- The second derivatives of a function at the nodes. -/
noncomputable def bends (nodes : Nodes ℝ) (g : ℝ → ℝ) (i : Nat) : ℝ := deriv (deriv g) (nodes.x i)

namespace IsNaturalSpline

variable {g : ℝ → ℝ} {S : Set ℝ}

theorem differentiable (hg : IsNaturalSpline nodes g) : Differentiable ℝ g :=
  hg.smooth.differentiable (by norm_num)

theorem deriv_differentiable (hg : IsNaturalSpline nodes g) : Differentiable ℝ (deriv g) := by
  have hsmooth : ContDiff ℝ (1 + 1) g := by
    rw [one_add_one_eq_two]
    exact hg.smooth
  exact (contDiff_succ_iff_deriv.mp hsmooth).2.2.differentiable (by norm_num)

theorem eqOn_arc (hg : IsNaturalSpline nodes g) (hi : i + 1 < nodes.size)
    (hS : Icc (nodes.x i) (nodes.x (i + 1)) ⊆ S) (hcubic : IsCubicOn g S) :
    EqOn g (arc nodes (bends nodes g) i) S := by
  obtain ⟨k₀, k₁, k₂, k₃, hk⟩ := hcubic
  have hlt : nodes.x i < nodes.x (i + 1) := nodes.x_lt (Nat.lt_succ_self i) hi
  -- the cubic with its first two derivatives, which are those of `g` on the interval
  have hq (t : ℝ) : HasDerivAt (fun t => k₀ + k₁ * t + k₂ * t ^ 2 + k₃ * t ^ 3)
      (k₁ + 2 * k₂ * t + 3 * k₃ * t ^ 2) t := by
    have hlinear := ((hasDerivAt_id t).const_mul k₁).const_add k₀
    have hsquare := hlinear.fun_add ((hasDerivAt_pow 2 t).const_mul k₂)
    refine (hsquare.fun_add ((hasDerivAt_pow 3 t).const_mul k₃)).congr_deriv ?_
    ring
  have hq' (t : ℝ) : HasDerivAt (fun t => k₁ + 2 * k₂ * t + 3 * k₃ * t ^ 2) (2 * k₂ + 6 * k₃ * t) t := by
    have hlinear := ((hasDerivAt_id t).const_mul (2 * k₂)).const_add k₁
    have hsquare := hlinear.fun_add ((hasDerivAt_pow 2 t).const_mul (3 * k₃))
    refine hsquare.congr_deriv ?_
    ring
  have hslope := deriv_eqOn hlt hg.differentiable (fun t => (hq t).differentiableAt)
    fun t ht => hk t (hS ht)
  rw [funext fun t => (hq t).deriv] at hslope
  have hbend := deriv_eqOn hlt hg.deriv_differentiable (fun t => (hq' t).differentiableAt) hslope
  rw [funext fun t => (hq' t).deriv] at hbend
  have hfirst : nodes.x i ∈ Icc (nodes.x i) (nodes.x (i + 1)) := left_mem_Icc.mpr hlt.le
  have hsecond : nodes.x (i + 1) ∈ Icc (nodes.x i) (nodes.x (i + 1)) := right_mem_Icc.mpr hlt.le
  have hm : bends nodes g i = 2 * k₂ + 6 * k₃ * nodes.x i := hbend hfirst
  have hm' : bends nodes g (i + 1) = 2 * k₂ + 6 * k₃ * nodes.x (i + 1) := hbend hsecond
  have hy := (hg.passes i (by omega)).symm.trans (hk _ (hS hfirst))
  have hy' := (hg.passes (i + 1) hi).symm.trans (hk _ (hS hsecond))
  have hne : nodes.x (i + 1) - nodes.x i ≠ 0 := sub_ne_zero.mpr hlt.ne'
  intro t ht
  rw [hk t ht, arc_eq, hm, hm', Nodes.slope, Nodes.width, hy, hy']
  field_simp
  ring

/-- The second derivatives of a natural spline at the nodes solve the system of the moments. -/
theorem solves (hg : IsNaturalSpline nodes g) : Solves nodes (bends nodes g) where
  first := hg.first
  last := hg.last
  row i hi := by
    have slope_eq {k : Nat} (hk : k + 1 < nodes.size) : EqOn (deriv g) (arcSlope nodes (bends nodes g) k)
        (Icc (nodes.x k) (nodes.x (k + 1))) := by
      have harc := hg.eqOn_arc hk subset_rfl (hg.cubic k hk)
      have hslope := deriv_eqOn (nodes.x_lt (Nat.lt_succ_self k) hk) hg.differentiable
        (fun t => (arc_hasDerivAt nodes _ k t).differentiableAt) harc
      have hderiv : deriv (arc nodes (bends nodes g) k) = arcSlope nodes (bends nodes g) k :=
        funext fun t => (arc_hasDerivAt nodes _ k t).deriv
      rwa [hderiv] at hslope
    have hlt : nodes.x i < nodes.x (i + 1) := nodes.x_lt (Nat.lt_succ_self i) (by omega)
    have hlt' : nodes.x (i + 1) < nodes.x (i + 2) := nodes.x_lt (Nat.lt_succ_self (i + 1)) hi
    rw [← arcSlope_meet_iff hi, ← slope_eq (by omega) (right_mem_Icc.mpr hlt.le)]
    exact slope_eq hi (left_mem_Icc.mpr hlt'.le)

theorem eqOn_moments (hg : IsNaturalSpline nodes g) (hi : i + 1 < nodes.size)
    (hS : Icc (nodes.x i) (nodes.x (i + 1)) ⊆ S) (hcubic : IsCubicOn g S) :
    EqOn g (arc nodes (Spline.ofNodes nodes).moment i) S := by
  have hsame := hg.solves.unique moment_solves
  intro t ht
  rw [hg.eqOn_arc hi hS hcubic ht, arc, arc, hsame i (by omega), hsame (i + 1) hi]

/-- Between the first and the last node there is one natural spline. -/
theorem eqOn_value (hg : IsNaturalSpline nodes g) :
    EqOn g (Spline.ofNodes nodes).value (Icc (nodes.x 0) (nodes.x nodes.final)) := by
  intro t ht
  have hlt := nodes.locate_lt t
  have hmem := nodes.locate_encloses ht
  rw [hg.eqOn_moments hlt subset_rfl (hg.cubic _ hlt) hmem,
    value_eq_arc nodes hlt (.inr hmem.1) (.inr hmem.2)]

/-- If its first and last cubic go on outwards, there is one natural spline on the whole line. -/
theorem eq_value (hg : IsNaturalSpline nodes g) (hout : GoesOn nodes g) :
    g = (Spline.ofNodes nodes).value := by
  have htwo := nodes.two_le_size
  funext t
  rcases le_or_gt t (nodes.x 0) with hbefore | hafter
  · have hle : t ≤ nodes.x 1 := hbefore.trans (nodes.x_lt Nat.zero_lt_one htwo).le
    rw [hg.eqOn_moments htwo Icc_subset_Iic_self hout.before hle,
      value_eq_arc nodes htwo (.inl rfl) (.inr hle)]
  rcases le_or_gt t (nodes.x nodes.final) with hinside | hbeyond
  · exact hg.eqOn_value ⟨hafter.le, hinside⟩
  · have hge : nodes.x (nodes.final - 1) ≤ t :=
      (nodes.x_le_final (Nat.lt_of_succ_lt nodes.final_pred_lt)).trans hbeyond.le
    rw [hg.eqOn_moments nodes.final_pred_lt Icc_subset_Ici_self hout.after hge,
      value_eq_arc nodes nodes.final_pred_lt (.inr hge) (.inl nodes.final_pred_succ)]

end IsNaturalSpline

/-! ## The cubic scheme -/

/-- **The cubic scheme fits the natural spline.** Over increasing abscissae, at least two, it always
gives an interpolation. It divides by widths and pivots only, which are positive, and the moments it finds
solve the system. Its value is a natural spline, with its two derivatives as they are given on the whole
line; between the first and the last node it is the only one, and it is the only one whose first and last
cubic go on outwards. -/
theorem fit_natural_spline {xs ys : List ℝ} (two : 2 ≤ xs.length) (sizes : xs.length = ys.length)
    (increasing : xs.Pairwise (· < ·)) :
    ∃ f, Scheme.cubic.fit xs ys = .ok f ∧ f.nodes.axis.values = xs ∧ f.nodes.ys = ys ∧
      (∀ i, i + 1 < xs.length → 0 < f.nodes.width i) ∧
      (∀ j, j + 2 < xs.length → 0 < pivot f.nodes j ∧
        (Spline.ofNodes f.nodes).moment (j + 1) =
          (right f.nodes j - f.nodes.width (j + 1) * (Spline.ofNodes f.nodes).moment (j + 2)) /
            pivot f.nodes j) ∧
      Solves f.nodes (Spline.ofNodes f.nodes).moment ∧
      IsNaturalSpline f.nodes f.value ∧ GoesOn f.nodes f.value ∧
      (∀ t, HasDerivAt f.value (f.derivative t) t ∧ HasDerivAt f.derivative (f.secondDerivative t) t) ∧
      ∀ g, IsNaturalSpline f.nodes g →
        EqOn g f.value (Icc (f.nodes.x 0) (f.nodes.x f.nodes.final)) ∧ (GoesOn f.nodes g → g = f.value) := by
  obtain ⟨nodes, hnodes⟩ := Nodes.ofLists_exists sizes two (disorder_of_pairwise increasing)
  obtain ⟨hx, hy⟩ := Nodes.ofLists_ok hnodes
  have hsize : xs.length = nodes.size := congrArg List.length hx.symm
  refine ⟨{ nodes, value := (Spline.ofNodes nodes).value, primitive := (Spline.ofNodes nodes).primitive,
            derivative := (Spline.ofNodes nodes).derivative,
            secondDerivative := (Spline.ofNodes nodes).secondDerivative }, ?_, hx, hy, ?_, ?_,
    moment_solves, value_isNaturalSpline nodes, value_goesOn nodes,
    fun t => ⟨value_hasDerivAt nodes t, derivative_hasDerivAt nodes t⟩,
    fun g hg => ⟨hg.eqOn_value, hg.eq_value⟩⟩
  · rw [Scheme.fit, hnodes]
    rfl
  · intro i hi
    exact width_pos nodes (by omega)
  · intro j hj
    have hj' : j + 2 < nodes.size := by omega
    exact ⟨pivot_pos hj', moment_eq hj'⟩

/-- The natural spline through `0`, `1`, `0` at `0`, `1`, `2` has the second derivative `-3` in the
middle. -/
theorem fit_natural_spline_tent :
    (2 ≤ [(0 : ℝ), 1, 2].length ∧ [(0 : ℝ), 1, 2].length = [(0 : ℝ), 1, 0].length ∧
      [(0 : ℝ), 1, 2].Pairwise (· < ·)) ∧
    ∃ f, Scheme.cubic.fit [(0 : ℝ), 1, 2] [0, 1, 0] = .ok f ∧ IsNaturalSpline f.nodes f.value ∧
      (Spline.ofNodes f.nodes).moment 1 = -3 := by
  have increasing : [(0 : ℝ), 1, 2].Pairwise (· < ·) := by norm_num
  have two : 2 ≤ [(0 : ℝ), 1, 2].length := by decide
  have sizes : [(0 : ℝ), 1, 2].length = [(0 : ℝ), 1, 0].length := rfl
  obtain ⟨f, hf, hx, hy, -, -, solves, natural, -⟩ := fit_natural_spline two sizes increasing
  refine ⟨⟨two, sizes, increasing⟩, f, hf, natural, ?_⟩
  have hsize : f.nodes.size = 3 := congrArg List.length hx
  have hrow := solves.row 0 (by omega)
  have hlast := solves.last
  rw [Nodes.final, hsize] at hlast
  simp only [Row, Nodes.slope, Nodes.width, Nodes.x, Nodes.y, Axis.value, hx, hy] at hrow
  norm_num [solves.first, hlast] at hrow
  linarith

end RateCurves.Cubic
