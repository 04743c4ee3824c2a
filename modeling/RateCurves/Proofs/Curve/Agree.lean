import RateCurves.Proofs.Calendar.Order
import RateCurves.Proofs.Failure.Outcome
import RateCurves.Proofs.Interpolation.Local
import RateCurves.Curve.Nodes

/-!
# Curves that agree up to a node

A query of a curve that passes the range check reads its functions of time (`CurveView.discount_eq`), and
up to its last node a curve is its interpolation (`NodeCurve.fit_node`). So curves of a local scheme whose
nodes agree up to node `k` have the same discount factors up to the time of node `k`
(`NodeCurve.fit_agree`), and on every date up to there they give the same answers
(`NodeCurve.AgreeUntil.discountOn`).
-/

namespace RateCurves

open Scalar

/-! ## Fitted curves -/

section fit

variable {α : Type} [Scalar α]

theorem NodeCurve.fit_ok {kind : CurveKind} {dayCount : DayCount} {scheme : Scheme} {dates : List Date}
    {times data : List α} {c : NodeCurve α} (h : fit kind dayCount scheme dates times data = .ok c) :
    ∃ nodes f, Nodes.ofLists times data = .ok nodes ∧ scheme.interpolate nodes = .ok f ∧
      c = { kind, dayCount, dates, times, data, interpolation := f } := by
  obtain ⟨f, hf, hc⟩ := Outcome.bind_ok.mp h
  obtain ⟨nodes, hnodes, hf⟩ := Outcome.bind_ok.mp hf
  cases hc
  exact ⟨nodes, f, hnodes, hf, rfl⟩

theorem Nodes.ofLists_resized {xs ys zs : List α} {nodes : Nodes α} (h : ofLists xs ys = .ok nodes)
    (hlength : zs.length = ys.length) : ∃ other, ofLists xs zs = .ok other := by
  unfold ofLists at h ⊢
  split at h
  · rename_i hsizes
    rw [dif_pos (hsizes.trans hlength.symm)]
    split at h
    · cases h
    · exact ⟨_, rfl⟩
  · cases h

theorem NodeCurve.fit_accepts {kind : CurveKind} {dayCount : DayCount} {dates : List Date}
    {times data : List α} {c : NodeCurve α} (h : fit kind dayCount .logLinear dates times data = .ok c) :
    LogLinear.accepts data = true := by
  obtain ⟨nodes, f, hnodes, hf, -⟩ := fit_ok h
  unfold Scheme.interpolate at hf
  simp only [(Nodes.ofLists_ok hnodes).2] at hf
  split at hf
  · assumption
  · cases hf

theorem NodeCurve.fit_refit {kind : CurveKind} {dayCount : DayCount} {scheme : Scheme} {dates : List Date}
    {times data other : List α} {c : NodeCurve α} (h : fit kind dayCount scheme dates times data = .ok c)
    (hlength : other.length = data.length)
    (haccepts : scheme = .logLinear → LogLinear.accepts data = true → LogLinear.accepts other = true) :
    ∃ d, fit kind dayCount scheme dates times other = .ok d := by
  obtain ⟨nodes, f, hnodes, -, -⟩ := fit_ok h
  obtain ⟨moved, hmoved⟩ := Nodes.ofLists_resized hnodes hlength
  obtain ⟨-, hy⟩ := Nodes.ofLists_ok hmoved
  obtain ⟨g, hg⟩ : ∃ g, scheme.interpolate moved = .ok g := by
    refine Scheme.interpolate_exists fun hscheme => ?_
    subst hscheme
    exact hy.symm ▸ haccepts rfl (fit_accepts h)
  exact ⟨_, Outcome.bind_ok.mpr ⟨g, Outcome.bind_ok.mpr ⟨moved, hmoved, hg⟩, rfl⟩⟩

end fit

theorem NodeCurve.fit_exists {kind : CurveKind} {dayCount : DayCount} {scheme : Scheme} {dates : List Date}
    {times data : List ℝ} (htwo : 2 ≤ times.length) (hincreasing : times.Pairwise (· < ·))
    (hlength : data.length = times.length) (hpositive : scheme = .logLinear → ∀ y ∈ data, 0 < y) :
    ∃ c, fit kind dayCount scheme dates times data = .ok c := by
  obtain ⟨f, hf, -, -⟩ := Scheme.fit_exists hlength.symm htwo hincreasing fun hscheme =>
    LogLinear.accepts_iff.mpr (hpositive hscheme)
  exact ⟨_, Outcome.bind_ok.mpr ⟨f, hf, rfl⟩⟩

/-! ## Discount factors and zero yields up to the last node -/

theorem CurveKind.discountAt_congr (kind : CurveKind) {f g : Interpolation ℝ} {t : ℝ} (hf : t ≤ f.high)
    (hg : t ≤ g.high) (hvalue : f.value t = g.value t) (hprimitive : f.primitive t = g.primitive t) :
    kind.discountAt f t = kind.discountAt g t := by
  cases kind with
  | discount => simp only [discountAt, discountOfDiscounts, if_pos hf, if_pos hg, hvalue]
  | zeroYield => simp only [discountAt, zeroOfZeros, if_pos hf, if_pos hg, hvalue]
  | forwardRate => simp only [discountAt, integralOfForwards, if_pos hf, if_pos hg, hprimitive]

namespace CurveView

section scalar

variable {α : Type} [Scalar α] {c : CurveView α} {t last : α} {extrapolate : Bool}

theorem timeOf_eq {reference : Date} (h : c.reference = .ok reference) (date : Date) :
    c.timeOf date = .ok (c.dayCount.yearFraction reference date) := by
  rw [timeOf, h]
  rfl

/-- A time that is not negative passes the check if it is not past the end of the curve or extrapolation is
allowed. -/
theorem checkTime_passes (hlast : c.lastTime = .ok last) (ht : ¬t < 0.0)
    (hend : (extrapolate || c.extrapolates) = true ∨ ¬last < t) : c.checkTime t extrapolate = .ok () := by
  rw [checkTime, if_neg ht, hlast]
  cases hallowed : (extrapolate || c.extrapolates) with
  | true => rfl
  | false =>
    have hinside := hend.resolve_left (by rw [hallowed]; exact Bool.false_ne_true)
    have hpast : (decide (last < t) && !closeEnough t last) = false := by
      rw [decide_eq_false hinside, Bool.false_and]
    show (if (decide (last < t) && !closeEnough t last) = true then _ else _) = _
    rw [hpast]
    rfl

theorem discount_eq (h : c.checkTime t extrapolate = .ok ()) :
    c.discount t extrapolate = c.discountAt t := by
  rw [discount, h]
  rfl

theorem zeroRate_eq (h : c.checkTime t extrapolate = .ok ()) : c.zeroRate t extrapolate = c.zeroAt t := by
  rw [zeroRate, h]
  rfl

theorem forwardRate_eq (hle : t ≤ t) (hself : (t == t) = true) (h : c.checkTime t extrapolate = .ok ()) :
    c.forwardRate t t extrapolate = c.forwardAt t := by
  rw [forwardRate, Outcome.require_ok.mpr (decide_eq_true hle), h, hself]
  rfl

/-! Curves with the same range have the same answers where their functions of time are the same. -/

variable {d : CurveView α}

theorem discount_congr (hcheck : c.checkTime t extrapolate = d.checkTime t extrapolate)
    (h : c.discountAt t = d.discountAt t) : c.discount t extrapolate = d.discount t extrapolate := by
  rw [discount, hcheck, h, discount]

end scalar

theorem checkTime_ok {c : CurveView ℝ} {t last : ℝ} {extrapolate : Bool} (hlast : c.lastTime = .ok last)
    (ht : 0 ≤ t) (hend : (extrapolate || c.extrapolates) = true ∨ t ≤ last) :
    c.checkTime t extrapolate = .ok () :=
  checkTime_passes hlast (by rw [lit_zero]; exact not_lt.mpr ht) (hend.imp_right not_lt.mpr)

theorem checkTime_negative {c : CurveView ℝ} {t : ℝ} (ht : t < 0) :
    c.checkTime t false = .error (.timeBeforeReference t) := by
  rw [← lit_zero] at ht
  rw [checkTime, if_pos ht]
  rfl

/-- On a date that is not past its end a curve answers, unless the date is before its reference date. -/
theorem discountOn_eq {c : CurveView ℝ} {reference date : Date} (hreference : c.reference = .ok reference)
    (hend : c.extrapolates = true ∨ date ≤ c.lastDate) :
    c.discountOn date =
      if (c.dayCount.yearFraction reference date : ℝ) < 0 then
        .error (.timeBeforeReference (c.dayCount.yearFraction reference date))
      else c.discountAt (c.dayCount.yearFraction reference date) := by
  have hend' : (false || c.extrapolates) = true ∨
      (c.dayCount.yearFraction reference date : ℝ) ≤ c.dayCount.yearFraction reference c.lastDate :=
    hend.imp id (c.dayCount.yearFraction_le reference)
  rw [discountOn, timeOf_eq hreference]
  show c.discount _ false = _
  split_ifs with hneg
  · rw [discount, checkTime_negative hneg]
    rfl
  · rw [discount, checkTime_ok (timeOf_eq hreference c.lastDate) (not_lt.mp hneg) hend']
    rfl

end CurveView

namespace NodeCurve

section node

variable {α : Type} [Scalar α] {kind : CurveKind} {dayCount : DayCount} {scheme : Scheme}
  {dates : List Date} {times data : List α} {c : NodeCurve α}

theorem timesOf_eq (dayCount : DayCount) (dates : List Date) :
    (timesOf dayCount dates : List α) = dates.map (dayCount.yearFraction (dates.headD .first)) := by
  cases dates <;> rfl

/-- At the time of a node, which is not past the end, the interpolation has the value of the node. -/
theorem fit_node [OrderedScalar α] (h : fit kind dayCount scheme dates times data = .ok c) {k : Nat} {t y : α}
    (htime : times[k]? = some t) (hdata : data[k]? = some y) :
    t ≤ c.interpolation.high ∧ c.interpolation.value t = y := by
  obtain ⟨nodes, f, hnodes, hf, rfl⟩ := fit_ok h
  have hk : k < nodes.size := by
    rw [Nodes.ofLists_size hnodes]
    exact (List.getElem?_eq_some_iff.mp htime).1
  rw [← Nodes.ofLists_x hnodes htime, ← Nodes.ofLists_y hnodes hdata]
  refine ⟨?_, Scheme.interpolate_x hf hk⟩
  unfold Interpolation.high
  rw [Scheme.interpolate_nodes hf]
  exact nodes.x_le_final hk

end node

theorem checkTime_view {c : NodeCurve ℝ} {extrapolates extrapolate : Bool} {t : ℝ} (ht : 0 ≤ t)
    (hend : (extrapolate || extrapolates) = true ∨
      t ≤ c.dayCount.yearFraction (c.dates.headD .first) (c.dates.getLastD .first)) :
    (c.view extrapolates).checkTime t extrapolate = .ok () :=
  CurveView.checkTime_ok (CurveView.timeOf_eq rfl _) ht hend

theorem discountOn_node {dayCount : DayCount} {scheme : Scheme} {dates : List Date} {times data : List ℝ}
    {c : NodeCurve ℝ} (h : fit .discount dayCount scheme dates times data = .ok c) {date : Date} {k : Nat}
    {t y : ℝ} (htime : times[k]? = some t) (hdata : data[k]? = some y)
    (hdate : dayCount.yearFraction (dates.headD .first) date = t) (ht : 0 ≤ t) :
    (c.view true).discountOn date = .ok y := by
  obtain ⟨hhigh, hvalue⟩ := fit_node h htime hdata
  obtain ⟨nodes, f, -, -, rfl⟩ := fit_ok h
  rw [CurveView.discountOn_eq rfl (.inl rfl)]
  simp only [view, hdate, if_neg (not_lt.mpr ht), CurveKind.discountAt, CurveKind.discountOfDiscounts,
    if_pos hhigh]
  exact congrArg _ hvalue

/-! ## Agreeing curves -/

/-- Curves with the same conventions whose discount factors are the same up to time `t`. -/
structure AgreeUntil (t : ℝ) (c d : NodeCurve ℝ) : Prop where
  dayCount : c.dayCount = d.dayCount
  reference : c.dates.headD .first = d.dates.headD .first
  discountAt : ∀ s ≤ t, c.kind.discountAt c.interpolation s = d.kind.discountAt d.interpolation s

variable {c d : NodeCurve ℝ} {t : ℝ}

theorem AgreeUntil.discountOn (h : AgreeUntil t c d) {extrapolates extrapolates' : Bool} {date : Date}
    (hdate : c.dayCount.yearFraction (c.dates.headD .first) date ≤ t)
    (hleft : extrapolates = true ∨ date ≤ c.dates.getLastD .first)
    (hright : extrapolates' = true ∨ date ≤ d.dates.getLastD .first) :
    (c.view extrapolates).discountOn date = (d.view extrapolates').discountOn date := by
  have hsame := h.discountAt _ hdate
  rw [h.dayCount, h.reference] at hsame
  rw [CurveView.discountOn_eq (c := c.view extrapolates) rfl hleft,
    CurveView.discountOn_eq (c := d.view extrapolates') rfl hright]
  simp only [view, h.dayCount, h.reference, hsame]
  rfl

variable {kind : CurveKind} {dayCount : DayCount} {scheme : Scheme} {dates dates' : List Date}
  {times times' data data' : List ℝ}

theorem fit_inside (hlocal : scheme.isGlobal = false)
    (hc : fit kind dayCount scheme dates times data = .ok c)
    (hd : fit kind dayCount scheme dates' times' data' = .ok d) {k : Nat} (hk : 1 ≤ k) {t : ℝ}
    (htime : times[k]? = some t) (htimes : ∀ i ≤ k, times[i]? = times'[i]?)
    (hdata : ∀ i ≤ k, data[i]? = data'[i]?) {s : ℝ} (hs : s ≤ t) :
    (s ≤ c.interpolation.high ∧ s ≤ d.interpolation.high) ∧
      c.interpolation.value s = d.interpolation.value s ∧
      c.interpolation.primitive s = d.interpolation.primitive s := by
  obtain ⟨a, f, ha, hf, rfl⟩ := fit_ok hc
  obtain ⟨b, g, hb, hg, rfl⟩ := fit_ok hd
  obtain ⟨hax, hay⟩ := Nodes.ofLists_ok ha
  obtain ⟨hbx, hby⟩ := Nodes.ofLists_ok hb
  have hx (i : Nat) : a.x i = times.getD i 0.0 ∧ b.x i = times'.getD i 0.0 := by
    unfold Nodes.x Axis.value
    exact ⟨by rw [hax], by rw [hbx]⟩
  have hy (i : Nat) : a.y i = data.getD i 0.0 ∧ b.y i = data'.getD i 0.0 := by
    unfold Nodes.y
    exact ⟨by rw [hay], by rw [hby]⟩
  have hat : a.x k = t := Nodes.ofLists_x ha htime
  have agree : Nodes.AgreeUpTo k a b := by
    refine ⟨?_, ?_, fun i hi => ?_, fun i hi => ?_⟩
    · rw [Nodes.ofLists_size ha]
      exact (List.getElem?_eq_some_iff.mp htime).1
    · rw [Nodes.ofLists_size hb]
      exact (List.getElem?_eq_some_iff.mp ((htimes k le_rfl).symm.trans htime)).1
    · simp only [hx, List.getD_eq_getElem?_getD, htimes i hi]
    · simp only [hy, List.getD_eq_getElem?_getD, hdata i hi]
  rw [← hat] at hs
  have hfhigh : a.x k ≤ f.high := by
    unfold Interpolation.high
    rw [Scheme.interpolate_nodes hf]
    exact a.x_le_final agree.left
  have hghigh : a.x k ≤ g.high := by
    unfold Interpolation.high
    rw [Scheme.interpolate_nodes hg, agree.x k le_rfl]
    exact b.x_le_final agree.right
  exact ⟨⟨hs.trans hfhigh, hs.trans hghigh⟩, Scheme.interpolate_agree hlocal hf hg agree hk hs⟩

/-- Under a local scheme the nodes up to `k` fix the curve until the time of node `k`. -/
theorem fit_agree (hlocal : scheme.isGlobal = false)
    (hc : fit kind dayCount scheme dates times data = .ok c)
    (hd : fit kind dayCount scheme dates' times' data' = .ok d)
    (hreference : dates.headD .first = dates'.headD .first) {k : Nat} (hk : 1 ≤ k) {t : ℝ}
    (htime : times[k]? = some t) (htimes : ∀ i ≤ k, times[i]? = times'[i]?)
    (hdata : ∀ i ≤ k, data[i]? = data'[i]?) : AgreeUntil t c d := by
  have inside {s : ℝ} (hs : s ≤ t) := fit_inside hlocal hc hd hk htime htimes hdata hs
  obtain ⟨_, f, -, -, rfl⟩ := fit_ok hc
  obtain ⟨_, g, -, -, rfl⟩ := fit_ok hd
  refine ⟨rfl, hreference, fun s hs => ?_⟩
  obtain ⟨⟨hf, hg⟩, hvalue, hprimitive⟩ := inside hs
  exact kind.discountAt_congr hf hg hvalue hprimitive

/-- Over two nodes the cubic curve is the linear one. -/
theorem fit_pair (hc : fit kind dayCount .linear dates times data = .ok c)
    (hd : fit kind dayCount .cubic dates times data = .ok d) (hpair : times.length = 2) (t : ℝ) :
    AgreeUntil t c d := by
  obtain ⟨a, f, ha, hf, rfl⟩ := fit_ok hc
  obtain ⟨b, g, hb, hg, rfl⟩ := fit_ok hd
  obtain rfl : a = b := Except.ok.inj (ha.symm.trans hb)
  have hsize : a.size = 2 := by
    rw [Nodes.ofLists_size ha, hpair]
  obtain ⟨hnodes, hvalue, hprimitive, hderivative⟩ := Scheme.interpolate_pair hsize hg hf
  refine ⟨rfl, rfl, fun s _ => ?_⟩
  have hhigh : g.high = f.high := congrArg (·.axis.high) hnodes
  have hlast : g.lastValue = f.lastValue := congrArg (fun nodes => nodes.y nodes.final) hnodes
  cases kind with
  | discount =>
    simp only [CurveKind.discountAt, CurveKind.discountOfDiscounts, hhigh, hlast, hvalue, hderivative]
  | zeroYield => simp only [CurveKind.discountAt, CurveKind.zeroOfZeros, hhigh, hlast, hvalue, hderivative]
  | forwardRate =>
    simp only [CurveKind.discountAt, CurveKind.integralOfForwards, hhigh, hlast, hprimitive]

end NodeCurve

end RateCurves
