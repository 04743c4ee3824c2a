import Mathlib
import RateCurves.Proofs.Failure.Outcome
import RateCurves.Proofs.Interpolation.Shape

/-!
# The primitive is the integral

A continuous function that has the derivative `value` off countably many points gives the integrals of
`value`, if these points do no harm, that is if `value` is bounded on every interval
(`Integrates.integral`). The smooth schemes have no such points: their pieces meet at the nodes, and so
do the areas up to them. The flat schemes have the nodes; their primitive goes on as a line on the side
on which they keep the ordinate of the end, and meets that line there. `Scheme.fit_primitive` puts the
schemes together.
-/

namespace RateCurves

open Set Filter Topology Scalar MeasureTheory

/-! ## From derivatives to integrals -/

/-- A primitive of a value that may jump on a set of exceptions. -/
structure Integrates (exceptions : Set ℝ) (value primitive : ℝ → ℝ) : Prop where
  continuous : Continuous primitive
  hasDerivAt : ∀ t ∉ exceptions, HasDerivAt primitive (value t) t
  bounded : ∀ a b, ∃ bound, ∀ t ∈ uIcc a b, ‖value t‖ ≤ bound

namespace Integrates

variable {exceptions : Set ℝ} {value primitive : ℝ → ℝ}

theorem mono {others : Set ℝ} (h : Integrates exceptions value primitive) (hsub : exceptions ⊆ others) :
    Integrates others value primitive :=
  ⟨h.continuous, fun t ht => h.hasDerivAt t fun hmem => ht (hsub hmem), h.bounded⟩

theorem integral (h : Integrates exceptions value primitive) (hcountable : exceptions.Countable)
    (a b : ℝ) : IntervalIntegrable value volume a b ∧ ∫ t in a..b, value t = primitive b - primitive a := by
  have hderiv : deriv primitive =ᵐ[volume] value := by
    filter_upwards [compl_mem_ae_iff.mpr (hcountable.measure_zero volume)] with t ht
    exact (h.hasDerivAt t ht).deriv
  have hmeasurable : AEStronglyMeasurable value volume :=
    (stronglyMeasurable_deriv primitive).aestronglyMeasurable.congr hderiv
  obtain ⟨bound, hbound⟩ := h.bounded a b
  have hintegrable : IntervalIntegrable value volume a b := by
    have hconst : IntervalIntegrable (fun _ => bound) volume a b := intervalIntegrable_const
    apply hconst.mono_fun' hmeasurable.restrict
    filter_upwards [ae_restrict_mem measurableSet_uIoc] with t ht
    exact hbound t (uIoc_subset_uIcc ht)
  refine ⟨hintegrable, integral_eq_of_hasDerivAt_off_countable primitive value hcountable
    h.continuous.continuousOn ?_ hintegrable⟩
  intro t ht
  exact h.hasDerivAt t ht.2

end Integrates

namespace Nodes

variable {nodes : Nodes ℝ}

/-- If the pieces of a smooth value meet, its areas are integrals on the whole line. -/
theorem Smooth.integrates {value primitive derivative : ℝ → ℝ} {piece slope : Nat → ℝ → ℝ}
    {integral : Nat → ℝ → ℝ}
    (h : nodes.Smooth value primitive derivative piece (nodes.areaUpTo integral) slope)
    (hmeet : nodes.Meets piece) (hzero : ∀ i, integral i 0 = 0) : Integrates ∅ value primitive := by
  have hderiv (t : ℝ) : HasDerivAt primitive (value t) t := by
    rw [h.primitive_eq, h.value_eq]
    exact pieced_hasDerivAt h.area_deriv (areaUpTo_meets hzero) hmeet t
  have hvalue : Continuous value := by
    rw [h.value_eq]
    refine pieced_continuous (fun i hi => ?_) hmeet
    exact continuous_iff_continuousAt.mpr fun t => (h.piece_deriv i hi t).continuousAt
  refine ⟨?_, fun t _ => hderiv t, ?_⟩
  · exact continuous_iff_continuousAt.mpr fun t => (hderiv t).continuousAt
  · intro a b
    exact isCompact_uIcc.exists_bound_of_continuousOn hvalue.continuousOn

/-- The abscissae of the nodes. -/
def abscissae (nodes : Nodes ℝ) : Set ℝ := {t | t ∈ nodes.axis.values}

theorem abscissae_countable (nodes : Nodes ℝ) : nodes.abscissae.Countable :=
  (List.finite_toSet nodes.axis.values).countable

theorem ne_x_of_notMem {t : ℝ} (h : t ∉ nodes.abscissae) : ∀ k < nodes.size, t ≠ nodes.x k := by
  rintro k hk rfl
  apply h
  show nodes.axis.values.getD k 0.0 ∈ nodes.axis.values
  rw [List.getD_eq_getElem _ _ hk]
  exact List.getElem_mem hk

theorem ordinates_bounded (nodes : Nodes ℝ) : ∃ bound, ∀ i, ‖nodes.y i‖ ≤ bound := by
  have hfinite : (range nodes.y).Finite := by
    apply ((List.finite_toSet nodes.ys).insert 0.0).subset
    rintro _ ⟨i, rfl⟩
    rw [y]
    by_cases hi : i < nodes.ys.length
    · rw [List.getD_eq_getElem _ _ hi]
      exact .inr (List.getElem_mem hi)
    · rw [List.getD_eq_default _ _ (by omega)]
      exact .inl rfl
  obtain ⟨bound, hbound⟩ := hfinite.isBounded.exists_norm_le
  exact ⟨bound, fun i => hbound _ (mem_range_self i)⟩

theorem bounded_of_ordinates {value : ℝ → ℝ} (h : ∀ t, ∃ i, value t = nodes.y i) (a b : ℝ) :
    ∃ bound, ∀ t ∈ uIcc a b, ‖value t‖ ≤ bound := by
  obtain ⟨bound, hbound⟩ := nodes.ordinates_bounded
  refine ⟨bound, ?_⟩
  intro t _
  obtain ⟨i, hi⟩ := h t
  rw [hi]
  exact hbound i

theorem x_zero_mem_span (nodes : Nodes ℝ) : nodes.x 0 ∈ nodes.span :=
  left_mem_Icc.mpr (nodes.x_le_final nodes.first_lt)

theorem x_final_mem_span (nodes : Nodes ℝ) : nodes.x nodes.final ∈ nodes.span :=
  right_mem_Icc.mpr (nodes.x_le_final nodes.first_lt)

theorem steps_continuous (nodes : Nodes ℝ) (ordinate : Nat → ℝ) :
    Continuous (nodes.pieced (nodes.areaUpTo fun j dx => dx * ordinate j)) := by
  apply pieced_continuous
  · intro i _
    exact nodes.areaUpTo_continuous ordinate i
  · apply areaUpTo_meets
    intro i
    exact zero_mul _

theorem steps_hasDerivAt (ordinate : Nat → ℝ) {t : ℝ} (h : ∀ k < nodes.size, t ≠ nodes.x k) :
    HasDerivAt (nodes.pieced (nodes.areaUpTo fun j dx => dx * ordinate j))
      (ordinate (nodes.locate t)) t :=
  (areaUpTo_hasDerivAt (hasDerivAt_mul_const _)).congr_of_eventuallyEq (pieced_near _ h)

end Nodes

open Nodes

/-! ## The flat schemes -/

namespace BackwardFlat

variable (nodes : Nodes ℝ)

theorem value_ordinate (t : ℝ) : ∃ i, value nodes t = nodes.y i := by
  rw [value]
  split_ifs
  · exact ⟨0, rfl⟩
  · simp only
    split_ifs <;> exact ⟨_, rfl⟩

theorem primitive_continuous : Continuous (primitive nodes) := by
  have hbefore : Continuous fun t => (t - nodes.x 0) * nodes.y 0 := by fun_prop
  apply hbefore.if_le (nodes.steps_continuous fun j => nodes.y (j + 1)) continuous_id continuous_const
  rintro _ rfl
  rw [← primitive_eq_pieced nodes nodes.x_zero_mem_span]
  exact (if_pos le_rfl).symm

theorem primitive_hasDerivAt {t : ℝ} (h : t ∉ nodes.abscissae) :
    HasDerivAt (primitive nodes) (value nodes t) t := by
  have hne := ne_x_of_notMem h
  rcases (hne 0 nodes.first_lt).lt_or_gt with hbefore | hafter
  · have hnear : primitive nodes =ᶠ[𝓝 t] fun s => (s - nodes.x 0) * nodes.y 0 := by
      filter_upwards [gt_mem_nhds hbefore] with s hs
      exact if_pos hs.le
    rw [value, if_pos hbefore.le]
    exact ((hasDerivAt_mul_const _).comp_sub_const t (nodes.x 0)).congr_of_eventuallyEq hnear
  · have hnear : primitive nodes =ᶠ[𝓝 t]
        nodes.pieced (nodes.areaUpTo fun j dx => dx * nodes.y (j + 1)) := by
      filter_upwards [lt_mem_nhds hafter] with s hs
      exact if_neg (not_le.mpr hs)
    have hinside : (t == nodes.x (nodes.locate t)) = false :=
      beq_false_of_ne (hne _ (Nat.lt_of_succ_lt (nodes.locate_lt t)))
    rw [value, if_neg (not_le.mpr hafter)]
    simp only [hinside, Bool.false_eq_true, if_false]
    exact (steps_hasDerivAt (fun j => nodes.y (j + 1)) hne).congr_of_eventuallyEq hnear

theorem integrates : Integrates nodes.abscissae (value nodes) (primitive nodes) where
  continuous := primitive_continuous nodes
  hasDerivAt _ := primitive_hasDerivAt nodes
  bounded := bounded_of_ordinates (value_ordinate nodes)

end BackwardFlat

namespace ForwardFlat

variable (nodes : Nodes ℝ)

theorem value_ordinate (t : ℝ) : ∃ i, value nodes t = nodes.y i := by
  rw [value]
  split_ifs <;> exact ⟨_, rfl⟩

theorem primitive_past {t : ℝ} (h : nodes.x nodes.final ≤ t) : primitive nodes t =
    areaTo (fun j => nodes.width j * nodes.y j) nodes.final +
      (t - nodes.x nodes.final) * nodes.y nodes.final :=
  if_pos h

theorem primitive_continuous : Continuous (primitive nodes) := by
  have hafter : Continuous fun t => areaTo (fun j => nodes.width j * nodes.y j) nodes.final +
      (t - nodes.x nodes.final) * nodes.y nodes.final := by fun_prop
  apply hafter.if_le (nodes.steps_continuous nodes.y) continuous_const continuous_id
  rintro _ rfl
  rw [← primitive_eq_pieced nodes nodes.x_final_mem_span]
  exact (primitive_past nodes le_rfl).symm

theorem primitive_hasDerivAt {t : ℝ} (h : t ∉ nodes.abscissae) :
    HasDerivAt (primitive nodes) (value nodes t) t := by
  have hne := ne_x_of_notMem h
  rcases (hne _ nodes.final_lt).lt_or_gt with hbefore | hafter
  · have hnear : primitive nodes =ᶠ[𝓝 t] nodes.pieced (nodes.areaUpTo fun j dx => dx * nodes.y j) := by
      filter_upwards [gt_mem_nhds hbefore] with s hs
      exact if_neg (not_le.mpr hs)
    rw [value, if_neg (not_le.mpr hbefore)]
    exact (steps_hasDerivAt nodes.y hne).congr_of_eventuallyEq hnear
  · have hnear : primitive nodes =ᶠ[𝓝 t] fun s =>
        areaTo (fun j => nodes.width j * nodes.y j) nodes.final +
          (s - nodes.x nodes.final) * nodes.y nodes.final := by
      filter_upwards [lt_mem_nhds hafter] with s hs
      exact primitive_past nodes hs.le
    have hline : HasDerivAt (fun s => (s - nodes.x nodes.final) * nodes.y nodes.final)
        (nodes.y nodes.final) t := (hasDerivAt_mul_const _).comp_sub_const t (nodes.x nodes.final)
    rw [value, if_pos hafter.le]
    exact (hline.const_add _).congr_of_eventuallyEq hnear

theorem integrates : Integrates nodes.abscissae (value nodes) (primitive nodes) where
  continuous := primitive_continuous nodes
  hasDerivAt _ := primitive_hasDerivAt nodes
  bounded := bounded_of_ordinates (value_ordinate nodes)

end ForwardFlat

/-! ## Schemes -/

namespace Scheme

variable {scheme : Scheme} {nodes : Nodes ℝ} {f : Interpolation ℝ}

/-- The values of the smooth schemes have no jumps. -/
theorem interpolate_integrates_smooth (hsmooth : scheme.isSmooth = true)
    (hf : scheme.interpolate nodes = .ok f) : Integrates ∅ f.value f.primitive := by
  cases scheme with
  | linear =>
    cases hf
    exact (Linear.smooth nodes).integrates (Linear.line_meets nodes) fun _ => zero_mul _
  | logLinear =>
    obtain ⟨haccepts, rfl⟩ := accepts_of_interpolate hf
    exact (LogLinear.smooth haccepts).integrates (LogLinear.curve_meets haccepts)
      fun _ => LogLinear.growthIntegral_zero _ _
  | cubic =>
    cases hf
    exact (Cubic.smooth nodes).integrates Cubic.arc_meets fun _ => zero_mul _
  | backwardFlat | forwardFlat => cases hsmooth

/-- The values of all schemes jump at nodes only. -/
theorem interpolate_integrates (hf : scheme.interpolate nodes = .ok f) :
    Integrates nodes.abscissae f.value f.primitive := by
  cases scheme with
  | linear | logLinear | cubic => exact (interpolate_integrates_smooth rfl hf).mono (empty_subset _)
  | backwardFlat =>
    cases hf
    exact BackwardFlat.integrates nodes
  | forwardFlat =>
    cases hf
    exact ForwardFlat.integrates nodes

/-- **The primitive is the integral.** Over increasing abscissae, at least two, with as many ordinates,
positive ones for the log-linear scheme, every scheme has a primitive that is zero at the first node and
continuous on the whole line. Its derivative is the value, everywhere for the linear, log-linear and
cubic schemes, and off the nodes for the flat ones. So the value is integrable between any two abscissae,
inside the nodes or not, and its integral is the increment of the primitive. -/
theorem fit_primitive {xs ys : List ℝ} (two : 2 ≤ xs.length) (sizes : xs.length = ys.length)
    (increasing : xs.Pairwise (· < ·)) (positive : scheme = .logLinear → ∀ y ∈ ys, 0 < y) :
    ∃ f, scheme.fit xs ys = .ok f ∧ f.nodes.axis.values = xs ∧ f.nodes.ys = ys ∧
      f.primitive f.low = 0 ∧ Continuous f.primitive ∧
      (∀ t, scheme.isSmooth = true ∨ t ∉ xs → HasDerivAt f.primitive (f.value t) t) ∧
      ∀ a b, IntervalIntegrable f.value volume a b ∧
        ∫ t in a..b, f.value t = f.primitive b - f.primitive a := by
  obtain ⟨f, fitted, hx, hy⟩ := fit_exists sizes two increasing fun hscheme =>
    LogLinear.accepts_iff.mpr (positive hscheme)
  obtain ⟨nodes, -, hf⟩ := Outcome.bind_ok.mp fitted
  obtain rfl := interpolate_nodes hf
  have hjumps := interpolate_integrates hf
  refine ⟨f, fitted, hx, hy, interpolate_first hf, hjumps.continuous, ?_,
    hjumps.integral f.nodes.abscissae_countable⟩
  rintro t (hsmooth | hnode)
  · exact (interpolate_integrates_smooth hsmooth hf).hasDerivAt t (notMem_empty t)
  · apply hjumps.hasDerivAt
    rw [← hx] at hnode
    exact hnode

/-- The backward-flat value through `5` and `2` at `0` and `1` has the integral `9` from `-1` to `2`: it
is `5` up to `0` and `2` afterwards. -/
theorem fit_primitive_step :
    (2 ≤ [(0 : ℝ), 1].length ∧ [(0 : ℝ), 1].length = [(5 : ℝ), 2].length ∧ [(0 : ℝ), 1].Pairwise (· < ·)) ∧
    ∃ f, Scheme.backwardFlat.fit [(0 : ℝ), 1] [5, 2] = .ok f ∧ f.primitive f.low = 0 ∧
      HasDerivAt f.primitive (f.value 2) 2 ∧ ∫ t in (-1)..2, f.value t = 9 := by
  have two : 2 ≤ [(0 : ℝ), 1].length := le_rfl
  have sizes : [(0 : ℝ), 1].length = [(5 : ℝ), 2].length := rfl
  have increasing : [(0 : ℝ), 1].Pairwise (· < ·) := by norm_num
  have positive : Scheme.backwardFlat = .logLinear → ∀ y ∈ [(5 : ℝ), 2], 0 < y := nofun
  obtain ⟨f, fitted, hx, hy, hfirst, -, hderiv, hintegral⟩ := fit_primitive two sizes increasing positive
  refine ⟨⟨two, sizes, increasing⟩, f, fitted, hfirst, hderiv 2 (.inr (by norm_num)), ?_⟩
  rw [(hintegral (-1) 2).2]
  have hsize : f.nodes.size = 2 := congrArg List.length hx
  have hstart : f.nodes.x 0 = 0 := by simp [Nodes.x, Axis.value, hx]
  have hleft : f.nodes.y 0 = 5 := by simp [Nodes.y, hy]
  have hright : f.nodes.y 1 = 2 := by simp [Nodes.y, hy]
  have hlocate : f.nodes.locate 2 = 0 := f.nodes.locate_eq ⟨hsize.ge, .inl rfl, .inl hsize.symm⟩
  obtain ⟨nodes, -, hf⟩ := Outcome.bind_ok.mp fitted
  cases hf
  have hbefore : BackwardFlat.primitive nodes (-1) = -5 := by
    norm_num [BackwardFlat.primitive, hstart, hleft]
  have hafter : BackwardFlat.primitive nodes 2 = 4 := by
    norm_num [BackwardFlat.primitive, Nodes.areaTo, hstart, hright, hlocate]
  show BackwardFlat.primitive nodes 2 - BackwardFlat.primitive nodes (-1) = 9
  rw [hbefore, hafter]
  norm_num

end Scheme

end RateCurves
