import RateCurves.Proofs.Bootstrap.FixedPoint
import RateCurves.Proofs.Curve.Rates
import RateCurves.Proofs.Interpolation.Shape

/-!
# Decreasing discount factors

Without negative rates the values of the nodes are bounded so that discount factors start at one and do not
rise, and forwards are positive (`NodeCurve.Sound`). The local schemes keep this between the nodes, and from
the last node on the forward is flat and not negative (`NodeCurve.fit_decreasing`). So a bootstrapped curve
of discount factors or forwards has discount factors that stay positive and do not rise, at all times
(`CurveSpec.bootstrap_decreasing`).
-/

namespace RateCurves

open Set Scalar

/-! ## From the nodes to all times -/

namespace CurveKind

variable {f : Interpolation ℝ}

theorem discountAt_antitone (kind : CurveKind) (hhigh : 0 < f.high) (hlast : f.value f.high = f.lastValue)
    (hinside : AntitoneOn (kind.discountAt f) (Icc 0 f.high)) (hend : 0 < kind.discountAt f f.high)
    (hforward : 0 ≤ kind.forwardAt f f.high) :
    AntitoneOn (kind.discountAt f) (Ici 0) ∧ ∀ t, 0 ≤ t → 0 < kind.discountAt f t := by
  have hpast : AntitoneOn (kind.discountAt f) (Ici f.high) := by
    intro s hs t ht hst
    rw [discountAt_past kind hhigh hlast hs, discountAt_past kind hhigh hlast ht]
    refine mul_le_mul_of_nonneg_left (Real.exp_le_exp.mpr ?_) hend.le
    exact mul_le_mul_of_nonpos_left (sub_le_sub_right hst f.high) (neg_nonpos.mpr hforward)
  constructor
  · rw [← Icc_union_Ici_eq_Ici hhigh.le]
    exact hinside.union_right hpast (isGreatest_Icc hhigh.le) isLeast_Ici
  · intro t ht
    rcases le_or_gt t f.high with hbefore | hafter
    · exact hend.trans_le (hinside ⟨ht, hbefore⟩ ⟨hhigh.le, le_rfl⟩ hbefore)
    · rw [discountAt_past kind hhigh hlast hafter.le]
      exact mul_pos hend (Real.exp_pos _)

end CurveKind

namespace NodeCurve

/-- A curve of discount factors that start at one and do not rise, or of forwards, all of them positive,
under a local scheme. -/
theorem fit_decreasing {kind : CurveKind} {dayCount : DayCount} {scheme : Scheme} {dates : List Date}
    {times data : List ℝ} {c : NodeCurve ℝ} (h : fit kind dayCount scheme dates times data = .ok c)
    (hlocal : scheme.isGlobal = false) (hkind : kind ≠ .zeroYield) (hstart : times.head? = some 0)
    (hpositive : ∀ y ∈ data, 0 < y) (hone : kind = .discount → data[0]? = some 1)
    (hfalling : kind = .discount →
      ∀ (i : Nat) x y, data[i]? = some x → data[i + 1]? = some y → y ≤ x) :
    AntitoneOn (c.kind.discountAt c.interpolation) (Ici 0) ∧
      (∀ t, 0 ≤ t → 0 < c.kind.discountAt c.interpolation t) ∧
      c.kind.discountAt c.interpolation 0 = 1 := by
  obtain ⟨nodes, f, hnodes, hf, rfl⟩ := fit_ok h
  obtain ⟨-, hys⟩ := Nodes.ofLists_ok hnodes
  obtain rfl := Scheme.interpolate_nodes hf
  have hy {i : Nat} (hi : i < f.nodes.size) : data[i]? = some (f.nodes.y i) := by
    have hlength : i < f.nodes.ys.length := by
      rw [f.nodes.sizes]
      exact hi
    rw [← hys, Nodes.y, List.getD_eq_getElem _ _ hlength, List.getElem?_eq_getElem hlength]
  have hfirst : f.nodes.x 0 = 0 := Nodes.ofLists_x hnodes (List.head?_eq_getElem?.symm.trans hstart)
  have hfinal := f.nodes.final_lt
  have hhigh : 0 < f.high := hfirst ▸ f.nodes.x_lt f.nodes.final_pos hfinal
  have hlast := Scheme.interpolate_high hf
  have hspan : f.nodes.span = Icc 0 f.high := by
    rw [Nodes.span, hfirst]
    rfl
  have hpositive : f.nodes.Positive := fun i hi => hpositive _ (List.mem_of_getElem? (hy hi))
  have hzero : kind = .discount → f.value 0 = 1 := by
    intro hdiscount
    rw [← hfirst, Scheme.interpolate_x hf f.nodes.first_lt]
    exact Nodes.ofLists_y hnodes (hone hdiscount)
  suffices hinside : AntitoneOn (kind.discountAt f) (Icc 0 f.high) ∧ 0 < kind.discountAt f f.high ∧
      0 ≤ kind.forwardAt f f.high by
    obtain ⟨hinside, hend, hforward⟩ := hinside
    obtain ⟨hfalls, hall⟩ := kind.discountAt_antitone hhigh hlast hinside hend hforward
    exact ⟨hfalls, hall, kind.discountAt_zero hhigh (hfirst ▸ Scheme.interpolate_first hf) hzero⟩
  cases kind with
  | zeroYield => exact absurd rfl hkind
  | discount =>
    obtain ⟨hvalue, hslope⟩ := Scheme.interpolate_antitone hlocal hf fun i hi =>
      hfalling rfl i _ _ (hy (Nat.lt_of_succ_lt hi)) (hy hi)
    have hend : 0 < f.value f.high := hlast.symm ▸ hpositive _ hfinal
    refine ⟨?_, (CurveKind.discount_inside le_rfl).symm ▸ hend, ?_⟩
    · rw [hspan] at hvalue
      exact hvalue.congr fun t ht => (CurveKind.discount_inside ht.2).symm
    · have hforward : CurveKind.discount.forwardAt f f.high = -(f.derivative f.high) / f.value f.high :=
        if_pos le_rfl
      rw [hforward]
      exact div_nonneg (neg_nonneg.mpr (hslope f.high)) hend.le
  | forwardRate =>
    have harea := Scheme.interpolate_monotone hlocal hf hpositive
    rw [hspan] at harea
    refine ⟨fun s hs t ht hst => ?_, ?_, ?_⟩
    · rw [CurveKind.forwardRate_inside hs.2, CurveKind.forwardRate_inside ht.2]
      exact Real.exp_le_exp.mpr (neg_le_neg (harea hs ht hst))
    · rw [CurveKind.forwardRate_inside le_rfl]
      exact Real.exp_pos _
    · have hforward : CurveKind.forwardRate.forwardAt f f.high = f.value f.high := if_pos le_rfl
      rw [hforward, hlast]
      exact (hpositive _ hfinal).le

end NodeCurve

/-! ## Bootstrapped curves -/

namespace CurveSpec

variable {κ : Type} {spec : CurveSpec κ ℝ} {read : κ → Option ℝ} {today : Option Date} {curve : NodeCurve ℝ}

/-- **Without negative rates discount factors do not rise.** Whatever the instruments and the solver, a
bootstrapped curve of discount factors or forwards under a local scheme has discount factors that are
positive, do not exceed one and never rise, past its end as well. -/
theorem bootstrap_decreasing (hkind : spec.kind ≠ .zeroYield) (hlocal : spec.scheme.isGlobal = false)
    (hnegative : spec.config.negativeRates = false) (h : spec.bootstrap read today = .ok curve)
    (extrapolates : Bool) {t₁ t₂ : ℝ} (ht₁ : 0 ≤ t₁) (ht₂ : t₁ ≤ t₂) :
    ∃ d₁ d₂, (curve.view extrapolates).discount t₁ true = .ok d₁ ∧
      (curve.view extrapolates).discount t₂ true = .ok d₂ ∧ 0 < d₂ ∧ d₂ ≤ d₁ ∧ d₁ ≤ 1 := by
  obtain ⟨reference, frame, iteration, before, -, hframe, hpublished⟩ := bootstrap_ok h
  have hsound := hpublished.sound hframe
  have hfirst : spec.kind = .discount → curve.data[0]? = some 1 := hsound.first_discount
  have hbounds (hdiscount : spec.kind = .discount) {i : Nat} {x y : ℝ} (hx : curve.data[i]? = some x)
      (hy : curve.data[i + 1]? = some y) : epsilon ≤ y ∧ y ≤ x := by
    have := hsound.discounts hdiscount i x y hx hy
    rwa [hnegative] at this
  have hpositive : ∀ y ∈ curve.data, 0 < y := by
    intro y hy
    refine epsilon_pos.trans_le ?_
    by_cases hdiscount : spec.kind = .discount
    · obtain ⟨i, hi⟩ := List.mem_iff_getElem?.mp hy
      cases i with
      | zero =>
        obtain rfl := Option.some.inj (hi.symm.trans (hfirst hdiscount))
        exact epsilon_lt_one.le
      | succ i =>
        have hlength := (List.getElem?_eq_some_iff.mp hi).1
        exact (hbounds hdiscount (List.getElem?_eq_getElem (Nat.lt_of_succ_lt hlength)) hi).1
    · have := (hsound.rates hdiscount y hy).1
      rwa [hnegative] at this
  obtain ⟨hfalls, hall, hone⟩ := NodeCurve.fit_decreasing hpublished.fitted hlocal hkind
    (frame_ok hframe).times_head hpositive hfirst fun hdiscount i x y hx hy => (hbounds hdiscount hx hy).2
  have hzero : (0 : ℝ) ∈ Ici 0 := mem_Ici.mpr le_rfl
  have hanswer {t : ℝ} (ht : 0 ≤ t) : (curve.view extrapolates).discount t true =
      .ok (curve.kind.discountAt curve.interpolation t) :=
    CurveView.discount_eq (NodeCurve.checkTime_view ht (.inl rfl))
  refine ⟨_, _, hanswer ht₁, hanswer (ht₁.trans ht₂), hall t₂ (ht₁.trans ht₂),
    hfalls ht₁ (ht₁.trans ht₂) ht₂, ?_⟩
  rw [← hone]
  exact hfalls hzero ht₁ ht₁

end CurveSpec

/-- The curve over two deposits falls from its reference date to past its end. -/
theorem TwoDeposits.decreasing : ∃ curve, spec.bootstrap quote none = .ok curve ∧
    ∃ d₁ d₂, (curve.view false).discount 0 true = .ok d₁ ∧ (curve.view false).discount 3 true = .ok d₂ ∧
      0 < d₂ ∧ d₂ ≤ d₁ ∧ d₁ ≤ 1 := by
  obtain ⟨curve, hcurve, -⟩ := bootstrap_spec
  have hkind : spec.kind ≠ .zeroYield := by decide
  exact ⟨curve, hcurve, CurveSpec.bootstrap_decreasing hkind rfl rfl hcurve false le_rfl zero_le_three⟩

end RateCurves
