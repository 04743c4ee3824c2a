import Mathlib
import RateCurves.Proofs.Failure.Outcome
import RateCurves.Proofs.Interpolation.Slopes

/-!
# The shape of the local schemes

On every interval a local scheme goes from the ordinate at the left to the one at the right end and never
turns back (`Nodes.Follows`, shown for each scheme). So it stays between the two, and what rises or falls
from node to node rises or falls from the first node to the last: the order is carried from interval to
interval, over the node between them (`Nodes.antitoneOn_of_intervals`). `Scheme.fit_never_overshoots` puts
this together. If the ordinates do not rise, the derivative is not positive either, not even where the
value leaves the last node (`Scheme.interpolate_antitone`); if they are positive, the primitive does not
fall (`Scheme.interpolate_monotone`).
-/

namespace RateCurves

open Set Scalar

/-! ## From interval to interval -/

namespace Nodes

variable (nodes : Nodes ℝ)

/-- The range of the abscissae. -/
def span : Set ℝ := Icc (nodes.x 0) (nodes.x nodes.final)

theorem antitoneOn_of_intervals {f : ℝ → ℝ}
    (h : ∀ i, i + 1 < nodes.size → AntitoneOn f (Icc (nodes.x i) (nodes.x (i + 1)))) :
    AntitoneOn f nodes.span := by
  have upTo : ∀ k, k < nodes.size → AntitoneOn f (Icc (nodes.x 0) (nodes.x k)) := by
    intro k
    induction k with
    | zero =>
      intro _
      rw [Icc_self]
      exact subsingleton_singleton.antitoneOn f
    | succ k ih =>
      intro hk
      have hfirst : nodes.x 0 ≤ nodes.x k := nodes.axis.value_le (Nat.zero_le k) (Nat.lt_of_succ_lt hk)
      have hnext : nodes.x k ≤ nodes.x (k + 1) := (nodes.x_lt (Nat.lt_succ_self k) hk).le
      rw [← Icc_union_Icc_eq_Icc hfirst hnext]
      exact (ih (Nat.lt_of_succ_lt hk)).union_right (h k hk) (isGreatest_Icc hfirst) (isLeast_Icc hnext)
  exact upTo nodes.final nodes.final_lt

theorem monotoneOn_of_intervals {f : ℝ → ℝ}
    (h : ∀ i, i + 1 < nodes.size → MonotoneOn f (Icc (nodes.x i) (nodes.x (i + 1)))) :
    MonotoneOn f nodes.span := by
  have hfalls : AntitoneOn (fun t => -f t) nodes.span :=
    nodes.antitoneOn_of_intervals fun i hi => (h i hi).neg
  exact fun s hs t ht hst => neg_le_neg_iff.mp (hfalls hs ht hst)

/-- Over interval `i` a function goes from one ordinate to the other and never turns back. -/
structure Follows (f : ℝ → ℝ) (i : Nat) : Prop where
  left : f (nodes.x i) = nodes.y i
  right : f (nodes.x (i + 1)) = nodes.y (i + 1)
  rises : nodes.y i ≤ nodes.y (i + 1) → MonotoneOn f (Icc (nodes.x i) (nodes.x (i + 1)))
  falls : nodes.y (i + 1) ≤ nodes.y i → AntitoneOn f (Icc (nodes.x i) (nodes.x (i + 1)))

variable {nodes} {piece slope : Nat → ℝ → ℝ}

theorem Follows.between {f : ℝ → ℝ} {i : Nat} (h : nodes.Follows f i) {t : ℝ}
    (ht : t ∈ Icc (nodes.x i) (nodes.x (i + 1))) : f t ∈ uIcc (nodes.y i) (nodes.y (i + 1)) := by
  rw [← h.left, ← h.right]
  rcases le_total (nodes.y i) (nodes.y (i + 1)) with hrises | hfalls
  · exact Icc_subset_uIcc ((h.rises hrises).mapsTo_Icc ht)
  · exact Icc_subset_uIcc' ((h.falls hfalls).mapsTo_Icc ht)

theorem Follows.of_step {f : ℝ → ℝ} {i : Nat} (left : f (nodes.x i) = nodes.y i)
    (right : f (nodes.x (i + 1)) = nodes.y (i + 1))
    (step : ∀ s t, s ∈ Icc (nodes.x i) (nodes.x (i + 1)) → t ∈ Icc (nodes.x i) (nodes.x (i + 1)) →
      s ≤ t → f s = f t ∨ f s = nodes.y i ∧ f t = nodes.y (i + 1)) : nodes.Follows f i where
  left := left
  right := right
  rises hle s hs t ht hst := by
    rcases step s t hs ht hst with heq | ⟨hs', ht'⟩
    · exact heq.le
    · rwa [hs', ht']
  falls hle s hs t ht hst := by
    rcases step s t hs ht hst with heq | ⟨hs', ht'⟩
    · exact heq.ge
    · rwa [hs', ht']

/-- Where pieces meet, a pieced function is its piece up to the end of the interval. -/
theorem pieced_on (hmeet : nodes.Meets piece) {i : Nat} (hi : i + 1 < nodes.size) :
    EqOn (nodes.pieced piece) (piece i) (Icc (nodes.x i) (nodes.x (i + 1))) := by
  rintro t ⟨hleft, hright⟩
  have hbound : i + 2 ≤ nodes.axis.values.length := hi
  rcases hright.eq_or_lt with rfl | hright
  · by_cases hlast : i + 2 = nodes.size
    · rw [pieced, nodes.locate_eq ⟨hbound, .inr hleft, .inl hlast⟩]
    · have hnext : i + 2 < nodes.size := by omega
      have hat : nodes.locate (nodes.x (i + 1)) = i + 1 :=
        nodes.locate_eq ⟨hnext, .inr le_rfl, .inr (nodes.x_lt (Nat.lt_succ_self _) hnext)⟩
      rw [pieced, hat, hmeet i hnext]
  · rw [pieced, nodes.locate_eq ⟨hbound, .inr hleft, .inr hright⟩]

/-- A pieced function does not rise on an interval where its piece has no positive slope. -/
theorem antitoneOn_interval (hmeet : nodes.Meets piece)
    (hderiv : ∀ i, i + 1 < nodes.size → ∀ t, HasDerivAt (piece i) (slope i t) t) {i : Nat}
    (hi : i + 1 < nodes.size) (hslope : ∀ t ∈ Icc (nodes.x i) (nodes.x (i + 1)), slope i t ≤ 0) :
    AntitoneOn (nodes.pieced piece) (Icc (nodes.x i) (nodes.x (i + 1))) := by
  refine AntitoneOn.congr ?_ (pieced_on hmeet hi).symm
  have hcontinuous : ContinuousOn (piece i) (Icc (nodes.x i) (nodes.x (i + 1))) :=
    fun t _ => (hderiv i hi t).continuousAt.continuousWithinAt
  exact antitoneOn_of_hasDerivWithinAt_nonpos (convex_Icc _ _) hcontinuous
    (fun t _ => (hderiv i hi t).hasDerivWithinAt) fun t ht => hslope t (interior_subset ht)

theorem monotoneOn_interval (hmeet : nodes.Meets piece)
    (hderiv : ∀ i, i + 1 < nodes.size → ∀ t, HasDerivAt (piece i) (slope i t) t) {i : Nat}
    (hi : i + 1 < nodes.size) (hslope : ∀ t ∈ Icc (nodes.x i) (nodes.x (i + 1)), 0 ≤ slope i t) :
    MonotoneOn (nodes.pieced piece) (Icc (nodes.x i) (nodes.x (i + 1))) := by
  have hneg (i : Nat) (hi : i + 1 < nodes.size) (t : ℝ) :
      HasDerivAt (fun t => -piece i t) (-slope i t) t := (hderiv i hi t).fun_neg
  have hfalls : AntitoneOn (nodes.pieced fun i t => -piece i t) (Icc (nodes.x i) (nodes.x (i + 1))) :=
    antitoneOn_interval (fun i hi => congrArg _ (hmeet i hi)) hneg hi
      fun t ht => neg_nonpos.mpr (hslope t ht)
  exact fun s hs t ht hst => neg_le_neg_iff.mp (hfalls hs ht hst)

theorem areaUpTo_meets {integral : Nat → ℝ → ℝ} (hzero : ∀ i, integral i 0 = 0) :
    nodes.Meets (nodes.areaUpTo integral) := by
  intro i _
  rw [areaUpTo, areaUpTo, sub_self, hzero, add_zero, areaTo]
  rfl

theorem steps_monotone (ordinate : Nat → ℝ) (h : ∀ i, i + 1 < nodes.size → 0 ≤ ordinate i) :
    MonotoneOn (nodes.pieced (nodes.areaUpTo fun j dx => dx * ordinate j)) nodes.span := by
  have hmeet : nodes.Meets (nodes.areaUpTo fun j dx => dx * ordinate j) := areaUpTo_meets fun _ => zero_mul _
  have hderiv (i : Nat) (_ : i + 1 < nodes.size) (t : ℝ) :
      HasDerivAt (nodes.areaUpTo (fun j dx => dx * ordinate j) i) (ordinate i) t :=
    areaUpTo_hasDerivAt (hasDerivAt_mul_const _)
  exact nodes.monotoneOn_of_intervals fun i hi => monotoneOn_interval hmeet hderiv hi fun _ _ => h i hi

theorem Smooth.primitive_monotone {value primitive derivative : ℝ → ℝ} {integral : Nat → ℝ → ℝ}
    (h : nodes.Smooth value primitive derivative piece (nodes.areaUpTo integral) slope)
    (hzero : ∀ i, integral i 0 = 0)
    (hpiece : ∀ i, i + 1 < nodes.size → ∀ t ∈ Icc (nodes.x i) (nodes.x (i + 1)), 0 ≤ piece i t) :
    MonotoneOn primitive nodes.span := by
  rw [h.primitive_eq]
  exact nodes.monotoneOn_of_intervals fun i hi =>
    monotoneOn_interval (areaUpTo_meets hzero) h.area_deriv hi (hpiece i hi)

/-- A value whose pieces meet and have slopes of one sign each never turns back. -/
theorem Smooth.follows {value primitive derivative : ℝ → ℝ} {area : Nat → ℝ → ℝ}
    (h : nodes.Smooth value primitive derivative piece area slope) (hmeet : nodes.Meets piece)
    (hnode : ∀ k, k < nodes.size → value (nodes.x k) = nodes.y k) {i : Nat} (hi : i + 1 < nodes.size)
    (hrises : nodes.y i ≤ nodes.y (i + 1) → ∀ t, 0 ≤ slope i t)
    (hfalls : nodes.y (i + 1) ≤ nodes.y i → ∀ t, slope i t ≤ 0) : nodes.Follows value i where
  left := hnode i (Nat.lt_of_succ_lt hi)
  right := hnode (i + 1) hi
  rises hle := by
    rw [h.value_eq]
    exact monotoneOn_interval hmeet h.piece_deriv hi fun t _ => hrises hle t
  falls hle := by
    rw [h.value_eq]
    exact antitoneOn_interval hmeet h.piece_deriv hi fun t _ => hfalls hle t

end Nodes

theorem Nodes.y_pairwise {nodes : Nodes ℝ} {r : ℝ → ℝ → Prop} (h : nodes.ys.Pairwise r) {i j : Nat} (hij : i < j)
    (hj : j < nodes.size) : r (nodes.y i) (nodes.y j) := by
  have hj' : j < nodes.ys.length := hj.trans_eq nodes.sizes.symm
  rw [y, y, List.getD_eq_getElem _ _ (hij.trans hj'), List.getD_eq_getElem _ _ hj']
  exact List.pairwise_iff_getElem.mp h i j _ hj' hij

/-- The ordinates are positive. -/
def Nodes.Positive (nodes : Nodes ℝ) : Prop := ∀ i < nodes.size, 0 < nodes.y i

/-- No ordinate exceeds the one before it. -/
def Nodes.Falling (nodes : Nodes ℝ) : Prop := ∀ i, i + 1 < nodes.size → nodes.y (i + 1) ≤ nodes.y i

open Nodes

/-! ## The linear scheme -/

namespace Linear

variable {nodes : Nodes ℝ}

theorem line_left (nodes : Nodes ℝ) (i : Nat) : line nodes i (nodes.x i) = nodes.y i := by
  rw [line, sub_self, mul_zero, add_zero]

theorem line_meets (nodes : Nodes ℝ) : nodes.Meets (line nodes) := by
  intro i hi
  rw [line_right nodes (Nat.lt_of_succ_lt hi), line_left]

theorem line_nonneg (hpositive : nodes.Positive) {i : Nat} (hi : i + 1 < nodes.size) {t : ℝ}
    (ht : t ∈ Icc (nodes.x i) (nodes.x (i + 1))) : 0 ≤ line nodes i t := by
  have hy := hpositive i (Nat.lt_of_succ_lt hi)
  have hright := line_right nodes hi
  unfold line at hright ⊢
  rcases le_or_gt 0 (nodes.slope i) with hrises | hfalls
  · have := mul_nonneg hrises (sub_nonneg.mpr ht.1)
    linarith
  · -- a falling line is lowest at the right end
    have hle := mul_le_mul_of_nonpos_left (sub_le_sub_right ht.2 (nodes.x i)) hfalls.le
    have hnext := hpositive (i + 1) hi
    linarith

theorem primitive_monotone (hpositive : nodes.Positive) : MonotoneOn (primitive nodes) nodes.span :=
  (smooth nodes).primitive_monotone (fun _ => zero_mul _) fun _ hi _ ht => line_nonneg hpositive hi ht

theorem slope_nonpos {i : Nat} (hi : i + 1 < nodes.size) (h : nodes.y (i + 1) ≤ nodes.y i) :
    nodes.slope i ≤ 0 :=
  div_nonpos_of_nonpos_of_nonneg (sub_nonpos.mpr h) (Cubic.width_pos nodes hi).le

theorem follows {i : Nat} (hi : i + 1 < nodes.size) : nodes.Follows (value nodes) i := by
  refine (smooth nodes).follows (line_meets nodes) (isLocal.value_x nodes) hi (fun h _ => ?_)
    fun h _ => slope_nonpos hi h
  exact div_nonneg (sub_nonneg.mpr h) (Cubic.width_pos nodes hi).le

end Linear

/-! ## The log-linear scheme -/

namespace LogLinear

variable {nodes : Nodes ℝ}

theorem curve_meets (haccepts : accepts nodes.ys = true) : nodes.Meets (curve nodes) := by
  intro i hi
  have hy := y_pos haccepts (Nat.lt_of_succ_lt hi)
  rw [curve_right (Nat.lt_of_succ_lt hi) hy, curve_left hy]

theorem primitive_monotone (haccepts : accepts nodes.ys = true) :
    MonotoneOn (primitive nodes) nodes.span :=
  (smooth haccepts).primitive_monotone (fun _ => growthIntegral_zero _ _) fun _ _ _ _ => (Real.exp_pos _).le

theorem rate_nonpos (haccepts : accepts nodes.ys = true) {i : Nat} (hi : i + 1 < nodes.size)
    (h : nodes.y (i + 1) ≤ nodes.y i) : rate nodes i ≤ 0 := by
  refine div_nonpos_of_nonpos_of_nonneg (sub_nonpos.mpr ?_) (Cubic.width_pos nodes hi).le
  exact Real.log_le_log (y_pos haccepts hi) h

theorem rate_nonneg (haccepts : accepts nodes.ys = true) {i : Nat} (hi : i + 1 < nodes.size)
    (h : nodes.y i ≤ nodes.y (i + 1)) : 0 ≤ rate nodes i := by
  refine div_nonneg (sub_nonneg.mpr ?_) (Cubic.width_pos nodes hi).le
  exact Real.log_le_log (y_pos haccepts (Nat.lt_of_succ_lt hi)) h

theorem follows (haccepts : accepts nodes.ys = true) {i : Nat} (hi : i + 1 < nodes.size) :
    nodes.Follows (value nodes) i := by
  refine (smooth haccepts).follows (curve_meets haccepts) (isLocal.value_x nodes) hi (fun h t => ?_) fun h t => ?_
  · exact mul_nonneg (Real.exp_pos _).le (rate_nonneg haccepts hi h)
  · exact mul_nonpos_of_nonneg_of_nonpos (Real.exp_pos _).le (rate_nonpos haccepts hi h)

end LogLinear

/-! ## The flat schemes -/

namespace BackwardFlat

variable {nodes : Nodes ℝ} {i : Nat} {t : ℝ}

theorem value_after (hi : i + 1 < nodes.size) (ht : t ∈ Ioc (nodes.x i) (nodes.x (i + 1))) :
    value nodes t = nodes.y (i + 1) := by
  rcases ht.2.eq_or_lt with rfl | hright
  · exact isLocal.value_x nodes (i + 1) hi
  · have hfirst : nodes.x 0 ≤ nodes.x i := nodes.axis.value_le (Nat.zero_le i) (Nat.lt_of_succ_lt hi)
    have hne : (t == nodes.x i) = false := beq_false_of_ne ht.1.ne'
    rw [value, if_neg (not_le.mpr (hfirst.trans_lt ht.1)),
      nodes.locate_eq ⟨hi, .inr ht.1.le, .inr hright⟩]
    simp only [hne, Bool.false_eq_true, if_false]

theorem follows (hi : i + 1 < nodes.size) : nodes.Follows (value nodes) i := by
  have hleft := isLocal.value_x nodes i (Nat.lt_of_succ_lt hi)
  refine .of_step hleft (isLocal.value_x nodes (i + 1) hi) fun s t hs ht hst => ?_
  rcases hs.1.eq_or_lt with rfl | hs'
  · rcases ht.1.eq_or_lt with rfl | ht'
    · exact .inl rfl
    · exact .inr ⟨hleft, value_after hi ⟨ht', ht.2⟩⟩
  · left
    rw [value_after hi ⟨hs', hs.2⟩, value_after hi ⟨hs'.trans_le hst, ht.2⟩]

theorem primitive_eq_pieced (nodes : Nodes ℝ) : EqOn (primitive nodes)
    (nodes.pieced (nodes.areaUpTo fun j dx => dx * nodes.y (j + 1))) nodes.span := by
  rintro t ⟨hleft, -⟩
  rw [primitive]
  rcases hleft.eq_or_lt with rfl | hleft
  · have hzero : nodes.locate (nodes.x 0) = 0 :=
      nodes.locate_eq ⟨nodes.two_le_size, .inl rfl,
        .inr (nodes.x_lt Nat.zero_lt_one nodes.two_le_size)⟩
    rw [if_pos le_rfl, pieced, hzero, areaUpTo, sub_self, zero_mul, zero_mul, areaTo, lit_zero, add_zero]
  · rw [if_neg (not_le.mpr hleft)]
    rfl

theorem primitive_monotone (hpositive : nodes.Positive) : MonotoneOn (primitive nodes) nodes.span := by
  refine MonotoneOn.congr ?_ (primitive_eq_pieced nodes).symm
  exact steps_monotone (fun j => nodes.y (j + 1)) fun i hi => (hpositive (i + 1) hi).le

end BackwardFlat

namespace ForwardFlat

variable {nodes : Nodes ℝ} {i : Nat} {t : ℝ}

theorem value_before (hi : i + 1 < nodes.size) (ht : t ∈ Ico (nodes.x i) (nodes.x (i + 1))) :
    value nodes t = nodes.y i := by
  rw [value, if_neg (nodes.not_final_le hi ht.2), nodes.locate_eq ⟨hi, .inr ht.1, .inr ht.2⟩]

theorem follows (hi : i + 1 < nodes.size) : nodes.Follows (value nodes) i := by
  have hright := isLocal.value_x nodes (i + 1) hi
  refine .of_step (isLocal.value_x nodes i (Nat.lt_of_succ_lt hi)) hright fun s t hs ht hst => ?_
  rcases ht.2.eq_or_lt with rfl | ht'
  · rcases hs.2.eq_or_lt with rfl | hs'
    · exact .inl rfl
    · exact .inr ⟨value_before hi ⟨hs.1, hs'⟩, hright⟩
  · left
    rw [value_before hi ⟨ht.1, ht'⟩, value_before hi ⟨hs.1, hst.trans_lt ht'⟩]

theorem primitive_eq_pieced (nodes : Nodes ℝ) : EqOn (primitive nodes)
    (nodes.pieced (nodes.areaUpTo fun j dx => dx * nodes.y j)) nodes.span := by
  rintro t ⟨-, hright⟩
  rcases hright.eq_or_lt with rfl | hright
  · rw [(nodes.pieced_near_final _).self_of_nhds]
    exact (primitive_near_final nodes).self_of_nhdsWithin self_mem_Iic
  · simp only [primitive, if_neg (not_le.mpr hright)]
    rfl

theorem primitive_monotone (hpositive : nodes.Positive) : MonotoneOn (primitive nodes) nodes.span := by
  refine MonotoneOn.congr ?_ (primitive_eq_pieced nodes).symm
  exact steps_monotone nodes.y fun i hi => (hpositive i (Nat.lt_of_succ_lt hi)).le

end ForwardFlat

/-! ## Schemes -/

namespace Scheme

variable {scheme : Scheme} {nodes : Nodes ℝ} {f : Interpolation ℝ}

/-- On no interval does the value of a local scheme turn back. -/
theorem interpolate_follows (hlocal : scheme.isGlobal = false) (hf : scheme.interpolate nodes = .ok f)
    {i : Nat} (hi : i + 1 < nodes.size) : nodes.Follows f.value i := by
  cases scheme with
  | linear =>
    cases hf
    exact Linear.follows hi
  | logLinear =>
    obtain ⟨haccepts, rfl⟩ := accepts_of_interpolate hf
    exact LogLinear.follows haccepts hi
  | backwardFlat =>
    cases hf
    exact BackwardFlat.follows hi
  | forwardFlat =>
    cases hf
    exact ForwardFlat.follows hi
  | cubic => cases hlocal

theorem interpolate_antitone (hlocal : scheme.isGlobal = false) (hf : scheme.interpolate nodes = .ok f)
    (hfalling : nodes.Falling) : AntitoneOn f.value nodes.span ∧ ∀ t, f.derivative t ≤ 0 := by
  refine ⟨nodes.antitoneOn_of_intervals fun i hi =>
    (interpolate_follows hlocal hf hi).falls (hfalling i hi), fun t => ?_⟩
  have hlt := nodes.locate_lt t
  cases scheme with
  | linear =>
    cases hf
    exact Linear.slope_nonpos hlt (hfalling _ hlt)
  | logLinear =>
    obtain ⟨haccepts, rfl⟩ := accepts_of_interpolate hf
    rw [(LogLinear.smooth haccepts).derivative_eq]
    exact mul_nonpos_of_nonneg_of_nonpos (Real.exp_pos _).le
      (LogLinear.rate_nonpos haccepts hlt (hfalling _ hlt))
  | backwardFlat | forwardFlat =>
    cases hf
    exact lit_zero.le
  | cubic => cases hlocal

theorem interpolate_monotone (hlocal : scheme.isGlobal = false) (hf : scheme.interpolate nodes = .ok f)
    (hpositive : nodes.Positive) : MonotoneOn f.primitive nodes.span := by
  cases scheme with
  | linear =>
    cases hf
    exact Linear.primitive_monotone hpositive
  | logLinear =>
    obtain ⟨haccepts, rfl⟩ := accepts_of_interpolate hf
    exact LogLinear.primitive_monotone haccepts
  | backwardFlat =>
    cases hf
    exact BackwardFlat.primitive_monotone hpositive
  | forwardFlat =>
    cases hf
    exact ForwardFlat.primitive_monotone hpositive
  | cubic => cases hlocal

/-- **Local schemes do not overshoot.** Over increasing abscissae, at least two, with as many ordinates,
positive ones for the log-linear scheme, every local scheme gives an interpolation. Between the first and
the last node every abscissa lies between two neighbouring nodes, and the value is between their ordinates
for all such neighbours. If the ordinates nowhere fall, neither does the value from the first node to the
last, and if they nowhere rise, neither does the value. -/
theorem fit_never_overshoots (hlocal : scheme.isGlobal = false) {xs ys : List ℝ} (two : 2 ≤ xs.length)
    (sizes : xs.length = ys.length) (increasing : xs.Pairwise (· < ·))
    (positive : scheme = .logLinear → ∀ y ∈ ys, 0 < y) :
    ∃ f, scheme.fit xs ys = .ok f ∧ f.nodes.axis.values = xs ∧ f.nodes.ys = ys ∧
      (∀ t ∈ Icc f.low f.high, ∃ i, i + 1 < xs.length ∧ t ∈ Icc (f.nodes.x i) (f.nodes.x (i + 1))) ∧
      (∀ i, i + 1 < xs.length → ∀ t ∈ Icc (f.nodes.x i) (f.nodes.x (i + 1)),
        f.value t ∈ uIcc (f.nodes.y i) (f.nodes.y (i + 1))) ∧
      (ys.Pairwise (· ≤ ·) → MonotoneOn f.value (Icc f.low f.high)) ∧
      (ys.Pairwise (· ≥ ·) → AntitoneOn f.value (Icc f.low f.high)) := by
  obtain ⟨f, fitted, hx, hy⟩ := fit_exists sizes two increasing fun hscheme =>
    LogLinear.accepts_iff.mpr (positive hscheme)
  obtain ⟨nodes, -, hf⟩ := Outcome.bind_ok.mp fitted
  obtain rfl := interpolate_nodes hf
  have hsize : f.nodes.size = xs.length := congrArg List.length hx
  have hfollows {i : Nat} (hi : i + 1 < f.nodes.size) := interpolate_follows hlocal hf hi
  have hordinates {r : ℝ → ℝ → Prop} (h : ys.Pairwise r) {i : Nat} (hi : i + 1 < f.nodes.size) :
      r (f.nodes.y i) (f.nodes.y (i + 1)) := by
    rw [← hy] at h
    exact y_pairwise h (Nat.lt_succ_self i) hi
  refine ⟨f, fitted, hx, hy, fun t ht => ⟨f.nodes.locate t, ?_, f.nodes.locate_encloses ht⟩, ?_, ?_, ?_⟩
  · rw [← hsize]
    exact f.nodes.locate_lt t
  · intro i hi t ht
    exact (hfollows (hsize ▸ hi)).between ht
  · intro hrises
    exact f.nodes.monotoneOn_of_intervals fun i hi => (hfollows hi).rises (hordinates hrises hi)
  · intro hfalls
    exact f.nodes.antitoneOn_of_intervals fun i hi => (hfollows hi).falls (hordinates hfalls hi)

/-- The log-linear value through `1`, `2`, `8` at `0`, `1`, `2` is between `1` and `2` at a half, between `2`
and `8` at one and a half, and does not fall in between. -/
theorem fit_never_overshoots_doubling :
    (Scheme.logLinear.isGlobal = false ∧ 2 ≤ [(0 : ℝ), 1, 2].length ∧
      [(0 : ℝ), 1, 2].length = [(1 : ℝ), 2, 8].length ∧ [(0 : ℝ), 1, 2].Pairwise (· < ·) ∧
      ∀ y ∈ [(1 : ℝ), 2, 8], 0 < y) ∧
    ∃ f, Scheme.logLinear.fit [(0 : ℝ), 1, 2] [1, 2, 8] = .ok f ∧ f.value (1 / 2) ∈ uIcc 1 2 ∧
      f.value (3 / 2) ∈ uIcc 2 8 ∧ MonotoneOn f.value (Icc 0 2) := by
  have two : 2 ≤ [(0 : ℝ), 1, 2].length := by decide
  have sizes : [(0 : ℝ), 1, 2].length = [(1 : ℝ), 2, 8].length := rfl
  have increasing : [(0 : ℝ), 1, 2].Pairwise (· < ·) := by norm_num
  have positive : ∀ y ∈ [(1 : ℝ), 2, 8], 0 < y := by norm_num
  have hlocal : Scheme.logLinear.isGlobal = false := rfl
  obtain ⟨f, fitted, hx, hy, -, hbetween, hrises, -⟩ :=
    fit_never_overshoots hlocal two sizes increasing fun _ => positive
  have hsize : f.nodes.size = 3 := congrArg List.length hx
  have hnode (k : Nat) (hk : k < 3) : f.nodes.x k = [(0 : ℝ), 1, 2][k] ∧ f.nodes.y k = [(1 : ℝ), 2, 8][k] := by
    simp only [Nodes.x, Axis.value, Nodes.y, hx, hy]
    exact ⟨List.getD_eq_getElem _ _ hk, List.getD_eq_getElem _ _ hk⟩
  obtain ⟨⟨x₀, y₀⟩, ⟨x₁, y₁⟩, ⟨x₂, y₂⟩⟩ := hnode 0 (by decide), hnode 1 (by decide), hnode 2 (by decide)
  have hlow : f.low = 0 := x₀
  have hhigh : f.high = 2 := by
    show f.nodes.x f.nodes.final = 2
    rw [final, hsize]
    exact x₂
  refine ⟨⟨hlocal, two, sizes, increasing, positive⟩, f, fitted, ?_, ?_, ?_⟩
  · have := hbetween 0 (by decide) (1 / 2)
    rw [x₀, x₁, y₀, y₁] at this
    exact this (by norm_num)
  · have := hbetween 1 (by decide) (3 / 2)
    rw [x₁, x₂, y₁, y₂] at this
    exact this (by norm_num)
  · rw [hlow, hhigh] at hrises
    exact hrises (by norm_num)

end Scheme

end RateCurves
