import RateCurves.Proofs.Bootstrap.Failures
import RateCurves.Proofs.Bootstrap.FixedPoint
import RateCurves.Proofs.Curve.FlatForwards

/-!
# Pairings that are not supported

Three pairings of a kind with a scheme are meant to fail (`CurveSpec.unsupported_pairings`), but nothing checks
for them: it is left to the root search to find no root. Log-linear rates fail as soon as a negative one
is tried. Under the other two the error of an instrument does not depend on its node (`objective_final`,
`objective_level`), and a search then ends with the lower bound as its root if the error is close to zero there
(`Solver.root_constant`). So a deposit that pays no interest is enough for a curve to be published
(`OneDeposit.unsupported_pairing_published`).
-/

namespace RateCurves

open Scalar

/-! ## Nodes that make no difference -/

theorem ForwardFlat.primitive_final {a b : Nodes ℝ} (haxis : a.axis = b.axis)
    (hy : ∀ i < a.final, a.y i = b.y i) {t : ℝ} (ht : t ≤ a.x a.final) : primitive a t = primitive b t := by
  have hx (i : Nat) : a.x i = b.x i := by
    unfold Nodes.x
    rw [haxis]
  have hwidth (i : Nat) : a.width i = b.width i := by
    unfold Nodes.width
    rw [hx, hx]
  have hfinal : a.final = b.final := by
    unfold Nodes.final Nodes.size
    rw [haxis]
  have harea {i : Nat} (hi : i ≤ a.final) : Nodes.areaTo (fun j => a.width j * a.y j) i =
      Nodes.areaTo (fun j => b.width j * b.y j) i :=
    Nodes.areaTo_congr fun j hj => by rw [hwidth, hy j (hj.trans_le hi)]
  rcases ht.eq_or_lt with rfl | ht
  · rw [isLocal.primitive_x a a.final a.final_lt, harea le_rfl, hx a.final, hfinal,
      isLocal.primitive_x b b.final b.final_lt]
  · have hlocate : a.locate t < a.final := by
      have := a.locate_lt t
      have := a.final_succ
      omega
    have hsame : b.locate t = a.locate t := by
      unfold Nodes.locate
      rw [haxis]
    unfold primitive
    simp only [if_neg (not_le.mpr ht), ← hfinal, ← hx, hsame, harea hlocate.le, hy _ hlocate]

theorem Nodes.areaTo_flat (nodes : Nodes ℝ) {f : ℝ} {k : Nat} (hflat : ∀ j < k, nodes.y j = f) :
    areaTo (fun j => nodes.width j * nodes.y j) k = f * (nodes.x k - nodes.x 0) := by
  induction k with
  | zero => rw [areaTo, lit_zero, sub_self, mul_zero]
  | succ k ih =>
    rw [areaTo, ih fun j hj => hflat j (Nat.lt_succ_of_lt hj), hflat k (Nat.lt_succ_self k), width]
    ring

theorem BackwardFlat.value_single {nodes : Nodes ℝ} (hsize : nodes.size = 2) {t : ℝ} (ht : nodes.x 0 < t) :
    value nodes t = nodes.y 1 := by
  have hlocate : nodes.locate t = 0 := by
    have := nodes.locate_lt t
    omega
  rw [value_inside nodes ht fun i hi hlast => absurd hlast (by omega), hlocate]

/-- On a forward-flat curve of forwards the last one makes no difference to the discount factors. -/
theorem NodeCurve.fit_final {dayCount : DayCount} {dates : List Date} {times data data' : List ℝ}
    {c d : NodeCurve ℝ} (hc : fit .forwardRate dayCount .forwardFlat dates times data = .ok c)
    (hd : fit .forwardRate dayCount .forwardFlat dates times data' = .ok d) {k : Nat}
    (hk : k + 1 = times.length) (hdata : ∀ i < k, data[i]? = data'[i]?) {t : ℝ} (ht : times[k]? = some t) :
    AgreeUntil t c d := by
  obtain ⟨a, f, ha, hf, rfl⟩ := fit_ok hc
  obtain ⟨b, g, hb, hg, rfl⟩ := fit_ok hd
  cases hf
  cases hg
  obtain ⟨hax, hay⟩ := Nodes.ofLists_ok ha
  obtain ⟨hbx, hby⟩ := Nodes.ofLists_ok hb
  have haxis : a.axis = b.axis := Axis.eq_of_values (hax.trans hbx.symm)
  have hfinal : a.final = k := by
    unfold Nodes.final
    rw [Nodes.ofLists_size ha]
    omega
  have hlast : a.x a.final = t := hfinal ▸ Nodes.ofLists_x ha ht
  have hy : ∀ i < a.final, a.y i = b.y i := by
    intro i hi
    unfold Nodes.y
    rw [hay, hby, List.getD_eq_getElem?_getD, List.getD_eq_getElem?_getD, hdata i (hfinal ▸ hi)]
  refine ⟨rfl, rfl, fun s hs => ?_⟩
  have hhigh : s ≤ a.axis.high := hs.trans_eq hlast.symm
  have hhigh' : s ≤ b.axis.high := haxis ▸ hhigh
  show exp (-(if s ≤ a.axis.high then ForwardFlat.primitive a s else _)) =
    exp (-(if s ≤ b.axis.high then ForwardFlat.primitive b s else _))
  rw [if_pos hhigh, if_pos hhigh', ForwardFlat.primitive_final haxis hy (hs.trans_eq hlast.symm)]

/-- As long as the forwards before a node are all the same, a forward-flat curve discounts at this rate up to it. -/
theorem NodeCurve.discountOn_flat {dayCount : DayCount} {dates : List Date} {times data : List ℝ}
    {c : NodeCurve ℝ} (h : fit .forwardRate dayCount .forwardFlat dates times data = .ok c) {k : Nat} {t f : ℝ}
    (hfirst : times[0]? = some 0) (htime : times[k]? = some t) (hflat : ∀ j < k, data[j]? = some f) {date : Date}
    (hdate : dayCount.yearFraction (dates.headD .first) date = t) (ht : 0 ≤ t) :
    (c.view true).discountOn date = .ok (Real.exp (-(f * t))) := by
  obtain ⟨nodes, g, hnodes, hg, rfl⟩ := fit_ok h
  cases hg
  have hk : k < nodes.size := by
    rw [Nodes.ofLists_size hnodes]
    exact (List.getElem?_eq_some_iff.mp htime).1
  have hhigh : t ≤ nodes.axis.high := Nodes.ofLists_x hnodes htime ▸ nodes.x_le_final hk
  have harea := nodes.areaTo_flat fun j hj => Nodes.ofLists_y hnodes (hflat j hj)
  have hprimitive := ForwardFlat.isLocal.primitive_x nodes k hk
  rw [harea, Nodes.ofLists_x hnodes htime, Nodes.ofLists_x hnodes hfirst, sub_zero] at hprimitive
  rw [CurveView.discountOn_eq rfl (.inl rfl)]
  simp only [view, hdate, if_neg (not_lt.mpr ht)]
  show Except.ok (Real.exp (-(if t ≤ nodes.axis.high then ForwardFlat.primitive nodes t else _))) = _
  rw [if_pos hhigh, hprimitive]

theorem NodeCurve.fit_single {dayCount : DayCount} {dates : List Date} {times data : List ℝ} {c : NodeCurve ℝ}
    (hc : fit .discount dayCount .backwardFlat dates times data = .ok c) (htwo : times.length = 2) {t x : ℝ}
    (hfirst : times[0]? = some 0) (hlast : times[1]? = some t) (hx : data[1]? = some x) {date : Date}
    (hafter : 0 < (dayCount.yearFraction (dates.headD .first) date : ℝ))
    (hbefore : dayCount.yearFraction (dates.headD .first) date ≤ t) :
    (c.view true).discountOn date = .ok x := by
  obtain ⟨nodes, f, hnodes, hf, rfl⟩ := fit_ok hc
  cases hf
  have hsize : nodes.size = 2 := (Nodes.ofLists_size hnodes).trans htwo
  have hhigh : dayCount.yearFraction (dates.headD .first) date ≤ nodes.axis.high := by
    have hfinal : nodes.final = 1 := by
      unfold Nodes.final
      omega
    have hend : nodes.x nodes.final = t := hfinal ▸ Nodes.ofLists_x hnodes hlast
    exact hbefore.trans_eq hend.symm
  have hvalue : BackwardFlat.value nodes (dayCount.yearFraction (dates.headD .first) date) = x := by
    rw [BackwardFlat.value_single hsize (by rwa [Nodes.ofLists_x hnodes hfirst]), Nodes.ofLists_y hnodes hx]
  rw [CurveView.discountOn_eq rfl (.inl rfl)]
  simp only [view, if_neg (not_lt.mpr hafter.le), CurveKind.discountAt, CurveKind.discountOfDiscounts,
    Interpolation.high, if_pos hhigh, hvalue]

/-! ## Curves without interest -/

/-- The discount factor is `x` on every date between `start` and `stop`. -/
def CurveView.Level (c : CurveView ℝ) (start stop : Date) (x : ℝ) : Prop :=
  ∀ date, start ≤ date → date ≤ stop → c.discountOn date = .ok x

section level

variable {κ : Type} {c : CurveView ℝ} {x : ℝ} (hx : 0 < x)
include hx

theorem Loan.forward_level {loan : Loan ℝ} (h : c.Level loan.start loan.stop x) : loan.forward c = .ok 0 := by
  unfold Loan.forward
  rw [h loan.start le_rfl loan.ordered.le, h loan.stop loan.ordered.le le_rfl]
  show Except.ok ((x / x - 1.0) / loan.accrual) = _
  rw [div_self hx.ne', lit_one, sub_self, zero_div]

theorem Accrues.annuity_level {start : Date} {coupons : List (Date × ℝ)} (h : Accrues start coupons)
    (hlevel : ∀ coupon ∈ coupons, c.discountOn coupon.1 = .ok x) (sum : ℝ) :
    ∃ a, (coupons.foldlM (fun sum (date, tau) => do
        let factor ← c.discountOn date
        return sum + tau * factor) sum : Outcome ℝ ℝ) = .ok a ∧ sum ≤ a ∧ (coupons ≠ [] → sum < a) := by
  induction h generalizing sum with
  | nil start => exact ⟨sum, rfl, le_rfl, fun h => absurd rfl h⟩
  | @cons start date tau rest later positive accrues ih =>
    obtain ⟨hfirst, hrest⟩ := List.forall_mem_cons.mp hlevel
    rw [lit_zero] at positive
    obtain ⟨a, ha, hle, -⟩ := ih hrest (sum + tau * x)
    have hmore : sum < a := (lt_add_of_pos_right sum (mul_pos positive hx)).trans_le hle
    refine ⟨a, ?_, hmore.le, fun _ => hmore⟩
    rw [List.foldlM_cons]
    simp only [hfirst]
    exact ha

theorem Schedule.parRate_level {s : Schedule ℝ} (h : c.Level s.start s.stop x) : s.parRate c = .ok 0 := by
  have hdates : ∀ coupon ∈ s.coupons, c.discountOn coupon.1 = .ok x := fun coupon hmem =>
    h coupon.1 (s.accrues.first_le _ (List.mem_cons_of_mem _ (List.mem_map_of_mem hmem)))
      (s.accrues.le_last _ (List.mem_cons_of_mem _ (List.mem_map_of_mem hmem)))
  obtain ⟨a, ha, -, hpos⟩ := s.accrues.annuity_level hx hdates 0.0
  have hnonzero : (a == (0.0 : ℝ)) = false := by
    have := hpos s.nonempty
    exact beq_false_of_ne this.ne'
  have hannuity : s.annuity c = .ok a := ha
  unfold parRate
  rw [hannuity, h s.start le_rfl s.start_le_stop, h s.stop s.start_le_stop le_rfl]
  show (if a == 0.0 then _ else Except.ok ((x - x) / a)) = _
  rw [hnonzero, sub_self, zero_div]
  rfl

end level

namespace Instrument

variable {κ : Type}

/-- What is quoted where no interest is earned over the term of the instrument: nothing, or the price of a
futures contract less its convexity adjustment. -/
noncomputable def levelQuote (read : κ → Option ℝ) : Instrument κ ℝ → Outcome ℝ ℝ
  | .futures _ convexity loan => do
    let adjustment ← convexityAdjustment read convexity loan.stop
    return 100 * (1 - adjustment)
  | _ => .ok 0

theorem impliedQuote_level (read : κ → Option ℝ) {i : Instrument κ ℝ} {c : CurveView ℝ} {x : ℝ} (hx : 0 < x)
    (h : c.Level i.start i.maturity x) : i.impliedQuote read c = i.levelQuote read := by
  cases i with
  | deposit rate loan | fra rate loan => exact loan.forward_level hx h
  | futures price convexity loan =>
    have hforward : loan.forward c = .ok 0 := loan.forward_level hx h
    unfold impliedQuote levelQuote
    have hundred (y : ℝ) : (100.0 : ℝ) * (1.0 - (0 + y)) = 100 * (1 - y) := by norm_num
    simp only [hforward]
    rcases convexityAdjustment read convexity loan.stop with e | adjustment
    · rfl
    · exact congrArg _ (hundred adjustment)
  | swap rate schedule => exact schedule.parRate_level hx h

end Instrument

/-! ## Segments of which the node makes no difference -/

namespace CurveSpec

variable {κ : Type} {spec : CurveSpec κ ℝ} {read : κ → Option ℝ} {reference : Date} {frame : Frame ℝ}

theorem stage_first (hlocal : spec.scheme.isGlobal = false) (i : Nat) :
    spec.stage 0 (i + 1) = (spec.scheme, i + 2) := by
  unfold stage
  rw [hlocal]
  rfl

section framed

variable (read) (hframe : spec.Framed reference frame) {i : Nat} {instrument : Instrument κ ℝ}
  (hi : spec.instruments[i]? = some instrument) {data : List ℝ}
  (hlength : data.length = spec.instruments.length + 1)
include hframe hi hlength

theorem partialCurve_first (hlocal : spec.scheme.isGlobal = false) (hlog : spec.scheme ≠ .logLinear) (x : ℝ) :
    ∃ c, NodeCurve.fit spec.kind spec.dayCount spec.scheme (frame.dates.take (i + 2)) (frame.times.take (i + 2))
        ((spec.kind.place data x (i + 1)).take (i + 2)) = .ok c ∧
      (spec.objective read frame 0 (i + 1) instrument x data).1 = instrument.quoteError read (c.view true) := by
  have hbound := (List.getElem?_eq_some_iff.mp hi).1
  obtain ⟨c, hc⟩ := partialCurve_exists hframe ((CurveKind.place_length spec.kind data x (i + 1)).trans hlength)
    hlog (Nat.le_add_left 2 i) (Nat.zero_lt_of_lt hbound)
  refine ⟨c, hc, ?_⟩
  rw [objective_apply, stage_first hlocal]
  show (spec.partialCurve frame spec.scheme (i + 2) (spec.kind.place data x (i + 1)) >>= _) = _
  rw [hc]
  rfl

/-- From the second instrument on, the error of a forward-flat curve of forwards does not depend on the node. -/
theorem objective_final (hkind : spec.kind = .forwardRate) (hscheme : spec.scheme = .forwardFlat)
    (hlater : 1 ≤ i) (x y : ℝ) : (spec.objective read frame 0 (i + 1) instrument x data).1 =
      (spec.objective read frame 0 (i + 1) instrument y data).1 := by
  have hlocal : spec.scheme.isGlobal = false := by rw [hscheme]; rfl
  have hlog : spec.scheme ≠ .logLinear := by rw [hscheme]; nofun
  have hbound := (List.getElem?_eq_some_iff.mp hi).1
  obtain ⟨c, hc, hcx⟩ := partialCurve_first read hframe hi hlength hlocal hlog x
  obtain ⟨d, hd, hdy⟩ := partialCurve_first read hframe hi hlength hlocal hlog y
  rw [hkind, hscheme] at hc hd
  have agree : NodeCurve.AgreeUntil (spec.dayCount.yearFraction reference instrument.maturity) c d := by
    refine NodeCurve.fit_final hc hd (k := i + 1) ?_ (fun j hj => ?_) ?_
    · rw [List.length_take, hframe.times_length]
      omega
    · have hbefore : j < i + 2 := Nat.lt_succ_of_lt hj
      rw [List.getElem?_take_of_lt hbefore, List.getElem?_take_of_lt hbefore,
        CurveKind.place_before (.inr (by omega)) hj, CurveKind.place_before (.inr (by omega)) hj]
    · exact hframe.time_take hi le_rfl
  rw [hcx, hdy]
  refine instrument.quoteError_congr read fun date hdate => agree.discountOn ?_ (.inl rfl) (.inl rfl)
  obtain ⟨_, _, -, -, rfl⟩ := NodeCurve.fit_ok hc
  rw [hframe.dates_take (Nat.succ_pos _)]
  exact spec.dayCount.yearFraction_le reference hdate

/-- As long as the forwards before its node are all the same, a deposit from the reference date is priced at this
rate. -/
theorem objective_flat {rate : Handle κ} {loan : Loan ℝ} (hdeposit : instrument = .deposit rate loan)
    (hstart : loan.start = reference) (hkind : spec.kind = .forwardRate) (hscheme : spec.scheme = .forwardFlat)
    {q f t x : ℝ} (hquote : instrument.referenceQuote read = .ok q)
    (ht : spec.dayCount.yearFraction reference loan.stop = t)
    (hflat : ∀ j ≤ i, (spec.kind.place data x (i + 1))[j]? = some f) :
    (spec.objective read frame 0 (i + 1) instrument x data).1 =
      .ok (q - (1 / Real.exp (-(f * t)) - 1) / loan.accrual) := by
  subst hdeposit ht
  have hlocal : spec.scheme.isGlobal = false := by rw [hscheme]; rfl
  have hlog : spec.scheme ≠ .logLinear := by rw [hscheme]; nofun
  obtain ⟨c, hc, hcx⟩ := partialCurve_first read hframe hi hlength hlocal hlog x
  rw [hkind, hscheme] at hc
  have hreference := hframe.dates_take (Nat.succ_pos (i + 1))
  have hfirst := hframe.times_first (Nat.succ_pos (i + 1))
  rw [hcx]
  refine Instrument.deposit_priced ?_ ?_ hquote
  · have hbefore : (c.view true).discountOn loan.start = .ok (Real.exp (-(f * 0))) :=
      NodeCurve.discountOn_flat hc hfirst hfirst (fun j hj => absurd hj j.not_lt_zero)
        (by rw [hreference, hstart, DayCount.yearFraction_self]) le_rfl
    rwa [mul_zero, neg_zero, Real.exp_zero] at hbefore
  · refine NodeCurve.discountOn_flat hc hfirst (hframe.time_take hi le_rfl) (fun j hj => ?_) (by rw [hreference]; rfl)
      (spec.dayCount.yearFraction_nonneg (hstart ▸ loan.ordered.le))
    rw [List.getElem?_take_of_lt (Nat.lt_succ_of_lt hj), ← hflat j (Nat.le_of_lt_succ hj), hkind]

/-- If the first instrument begins after the reference date, a backward-flat curve of discount factors earns no
interest over its term, whatever the positive value of its node. -/
theorem objective_level (hkind : spec.kind = .discount) (hscheme : spec.scheme = .backwardFlat) (hfirst : i = 0)
    (hstart : 0 < (spec.dayCount.yearFraction reference instrument.start : ℝ)) {x : ℝ} (hx : 0 < x) :
    (spec.objective read frame 0 (i + 1) instrument x data).1 = (do
      let quote ← instrument.referenceQuote read
      let level ← instrument.levelQuote read
      return quote - level) := by
  subst hfirst
  have hlocal : spec.scheme.isGlobal = false := by rw [hscheme]; rfl
  have hlog : spec.scheme ≠ .logLinear := by rw [hscheme]; nofun
  have hbound := (List.getElem?_eq_some_iff.mp hi).1
  obtain ⟨c, hc, hcx⟩ := partialCurve_first read hframe hi hlength hlocal hlog x
  rw [hkind, hscheme] at hc
  have hlevel : (c.view true).Level instrument.start instrument.maturity x := by
    intro date hafter hbefore
    refine NodeCurve.fit_single hc ?_ (hframe.times_first Nat.two_pos) (hframe.time_take hi le_rfl) ?_ ?_ ?_
    · rw [List.length_take, hframe.times_length]
      omega
    · rw [List.getElem?_take_of_lt Nat.one_lt_two, CurveKind.place_at (by omega)]
    · rw [hframe.dates_take (Nat.succ_pos _)]
      exact hstart.trans_le (spec.dayCount.yearFraction_le reference hafter)
    · rw [hframe.dates_take (Nat.succ_pos _)]
      exact spec.dayCount.yearFraction_le reference hbefore
  rw [hcx, Instrument.quoteError, instrument.impliedQuote_level read hx hlevel]

end framed

/-! ## The first pass -/

/-- The first pass, which ends with `nodes`, has solved for the node of an instrument although the error of its
quote does not depend on it: it is close to zero wherever the search may look, and so the lower bound is the
root. -/
structure SolvedAnyway (spec : CurveSpec κ ℝ) (read : κ → Option ℝ) (frame : Frame ℝ) (nodes : List ℝ) (i : Nat)
    (instrument : Instrument κ ℝ) : Prop where
  reached : spec.passes read frame 1 = .ok nodes
  lowest : nodes[i + 1]? = some (spec.kind.least spec.config.negativeRates)
  priced : ∃ v, close v 0 = true ∧ ∀ x, spec.kind.least spec.config.negativeRates ≤ x →
    (spec.objective read frame 0 (i + 1) instrument x nodes).1 = .ok v

section solved

variable {before nodes : List ℝ} {i : Nat} {instrument : Instrument κ ℝ} {working : List ℝ}
  {range : SearchRange ℝ} {root : ℝ} (h : spec.Solved read frame 0 before nodes i instrument working range root)
include h

/-- An objective has the same values on the nodes that the first pass ends with as when it was searched. -/
theorem Solved.objective_first (hlocal : spec.scheme.isGlobal = false) (x : ℝ) :
    (spec.objective read frame 0 (i + 1) instrument x nodes).1 =
      (spec.objective read frame 0 (i + 1) instrument x working).1 := by
  have htake : (spec.kind.place nodes x (i + 1)).take (i + 2) =
      (spec.kind.place working x (i + 1)).take (i + 2) := by
    apply List.ext_getElem?
    intro j
    rw [List.getElem?_take, List.getElem?_take]
    split_ifs with hj
    · exact h.place_kept (Nat.le_of_lt_succ hj) x
    · rfl
  rw [objective_apply, objective_apply, stage_first hlocal]
  unfold partialCurve
  rw [htake]

theorem Solved.anyway (hlocal : spec.scheme.isGlobal = false)
    (hlength : before.length = spec.instruments.length + 1) (hreached : spec.passes read frame 1 = .ok nodes)
    (hsame : ∀ x y, spec.kind.least spec.config.negativeRates ≤ x →
      spec.kind.least spec.config.negativeRates ≤ y →
      (spec.objective read frame 0 (i + 1) instrument x nodes).1 =
        (spec.objective read frame 0 (i + 1) instrument y nodes).1) :
    spec.SolvedAnyway read frame nodes i instrument := by
  have hlow := (searchRange_bounds h.searched).1
  have hproper : range.low ≤ range.high := h.admitted.2.le
  -- the value that has been tried at the lower bound is replaced by the next one
  have hplaced : spec.objective read frame 0 (i + 1) instrument range.high
      (spec.objective read frame 0 (i + 1) instrument range.low working).2 =
      spec.objective read frame 0 (i + 1) instrument range.high working :=
    objective_placed _ _ _ _ _ _ _ fun v => CurveKind.place_place ..
  have hends : (spec.objective read frame 0 (i + 1) instrument range.high
      (spec.objective read frame 0 (i + 1) instrument range.low working).2).1 =
      (spec.objective read frame 0 (i + 1) instrument range.low working).1 := by
    rw [hplaced, ← h.objective_first hlocal, ← h.objective_first hlocal]
    exact hsame _ _ (hlow ▸ hproper) hlow.ge
  obtain ⟨hroot, v, hv, hclose⟩ := spec.solver.root_constant hends h.found
  refine ⟨hreached, ?_, v, hclose, fun x hx => ?_⟩
  · have := h.lt
    have := h.length_eq
    rw [h.kept (i + 1) le_rfl, CurveKind.place_at (by omega), hroot, hlow]
  · rw [hsame x range.low hx hlow.ge, h.objective_first hlocal, hv]

/-- No log-linear curve has been searched with a bound that is not positive. -/
theorem Solved.least_pos (hscheme : spec.scheme = .logLinear)
    (hlength : before.length = spec.instruments.length + 1) :
    (0 : ℝ) < spec.kind.least spec.config.negativeRates := by
  have hlocal : spec.scheme.isGlobal = false := by rw [hscheme]; rfl
  obtain ⟨v, hv, -⟩ := spec.solver.root_ends h.found
  rw [objective_apply, stage_first hlocal, hscheme] at hv
  obtain ⟨curve, hcurve, -⟩ := Outcome.bind_ok.mp hv
  have hbound := h.lt
  have hworking := h.length_eq
  rw [← (searchRange_bounds h.searched).1]
  refine LogLinear.accepts_iff.mp (NodeCurve.fit_accepts hcurve) _ (List.mem_of_getElem? (i := i + 1) ?_)
  rw [List.getElem?_take_of_lt (Nat.lt_succ_self _), CurveKind.place_at (by omega)]

end solved

theorem least_nonpos {kind : CurveKind} (hkind : kind ≠ .discount) {negativeRates : Bool}
    (hnegative : negativeRates = true) : (kind.least negativeRates : ℝ) ≤ 0 := by
  subst hnegative
  cases kind with
  | discount => exact absurd rfl hkind
  | forwardRate | zeroYield =>
    show -(3.0 : ℝ) ≤ 0
    norm_num

/-- A bootstrap fails at a segment that cannot be solved. -/
def Unsolved (spec : CurveSpec κ ℝ) (read : κ → Option ℝ) (today : Option Date) : Prop :=
  ∃ maturity segment iteration cause,
    spec.bootstrap read today = .error (.segmentUnsolved maturity segment iteration cause)

/-- **What becomes of the pairings that are not supported.** A curve of rates under the log-linear scheme cannot
be bootstrapped if rates may be negative. A forward-flat curve of forwards can only be if every instrument
but the first is priced anyway, whatever its node is. A backward-flat curve of discount factors
whose first instrument begins after the reference date, and not at time zero, can only be if that instrument is
quoted as if no interest were earned. -/
theorem unsupported_pairings {kind : CurveKind} {reference : Reference} {instruments : List (Instrument κ ℝ)}
    {dayCount : DayCount} {scheme : Scheme} {config : BootstrapConfig ℝ} {solver : Solver}
    (made : CurveSpec.make kind reference instruments dayCount scheme config solver = .ok spec)
    {today : Option Date} {start : Date} (resolved : reference.resolve today = (.ok start : Outcome ℝ Date))
    (checked : spec.checkInstruments read start = .ok ()) (framed : spec.frame start = .ok frame) :
    (kind ≠ .discount → scheme = .logLinear → config.negativeRates = true → spec.Unsolved read today) ∧
    (kind = .forwardRate → scheme = .forwardFlat → spec.Unsolved read today ∨ ∃ nodes, ∀ i instrument, 1 ≤ i →
      spec.instruments[i]? = some instrument → spec.SolvedAnyway read frame nodes i instrument) ∧
    (kind = .discount → scheme = .backwardFlat → ∀ first, spec.instruments[0]? = some first →
      start < first.start → (dayCount.yearFraction start first.start : ℝ) = 0 ∨ spec.Unsolved read today ∨
      (∃ nodes, spec.SolvedAnyway read frame nodes 0 first) ∧
        ∃ quote level, first.referenceQuote read = .ok quote ∧ first.levelQuote read = .ok level ∧
          close (quote - level) 0 = true) := by
  have hsome := make_nonempty made
  have hiterates := make_iterates made
  obtain ⟨ordered, -, rfl⟩ := make_ok made
  have hframe := frame_ok framed
  have hinitial : (List.replicate (ordered.length + 1) (kind.initialValue : ℝ)).length = ordered.length + 1 :=
    List.length_replicate
  cases hpass : CurveSpec.pass ⟨kind, reference, ordered, dayCount, scheme, config, solver⟩ read frame 0
      (List.replicate (ordered.length + 1) kind.initialValue) with
  | error e =>
    have hunsolved : CurveSpec.Unsolved ⟨kind, reference, ordered, dayCount, scheme, config, solver⟩ read
        today := by
      obtain ⟨j, instrument, cause, -, rfl⟩ := solveFrom_unsolved hpass
      exact ⟨_, _, _, cause, bootstrap_pass_error resolved checked framed hiterates hpass⟩
    exact ⟨fun _ _ _ => hunsolved, fun _ _ => .inl hunsolved, fun _ _ _ _ _ => .inr (.inl hunsolved)⟩
  | ok nodes =>
    have hnodes : nodes.length = ordered.length + 1 := (solveFrom_length hpass).trans hinitial
    refine ⟨?_, ?_, ?_⟩
    · intro hkind hscheme hnegative
      obtain ⟨working, range, root, hs⟩ := pass_ok hpass (List.length_pos_of_ne_nil hsome)
      have hpos := hs.least_pos hscheme hinitial
      exact absurd hpos (not_lt.mpr (least_nonpos hkind hnegative))
    · rintro rfl rfl
      refine .inr ⟨nodes, fun i instrument hlater hi => ?_⟩
      obtain ⟨hbound, rfl⟩ := List.getElem?_eq_some_iff.mp hi
      obtain ⟨working, range, root, hs⟩ := pass_ok hpass hbound
      exact hs.anyway rfl hinitial hpass fun x y _ _ => objective_final read hframe hi hnodes rfl rfl hlater x y
    · rintro rfl rfl first hfirst hlater
      rcases (dayCount.yearFraction_nonneg hlater.le).eq_or_lt with hzero | hstart
      · exact .inl hzero.symm
      obtain ⟨hbound, rfl⟩ := List.getElem?_eq_some_iff.mp hfirst
      obtain ⟨working, range, root, hs⟩ := pass_ok hpass hbound
      have hlevel {x : ℝ} (hx : epsilon ≤ x) := objective_level read hframe hfirst hnodes rfl rfl rfl
        hstart (epsilon_pos.trans_le hx)
      have hanyway := hs.anyway rfl hinitial hpass fun x y hx hy => (hlevel hx).trans (hlevel hy).symm
      obtain ⟨v, hclose, hv⟩ := hanyway.priced
      obtain ⟨quote, hquote, hv⟩ := Outcome.bind_ok.mp ((hlevel le_rfl).symm.trans (hv epsilon le_rfl))
      obtain ⟨level, hlevel, hv⟩ := Outcome.bind_ok.mp hv
      obtain rfl := Except.ok.inj hv
      exact .inr (.inr ⟨⟨nodes, hanyway⟩, quote, level, hquote, hlevel, hclose⟩)

end CurveSpec

/-! ## Forwards over two deposits -/

namespace TwoDeposits

open OneYear
open OneDeposit (deposit)

/-- A forward-flat curve of forwards over both deposits. -/
noncomputable def forwards : CurveSpec Nat ℝ := { spec with kind := .forwardRate, scheme := .forwardFlat }

/-- Both of them double a unit in a year without compounding. -/
noncomputable def doubling : Nat → Option ℝ := fun _ => some 1

theorem forwards_frame : forwards.frame start = .ok frame := frame_spec

theorem forwards_checked : forwards.checkInstruments doubling start = .ok () :=
  CurveSpec.checkInstruments_pair rfl (by decide : start < stop) (by decide : start < final) rfl rfl

theorem growth_of_crossing {f y : ℝ} (hnear : |y - f| ≤ 1 / 100) (h : (2 - Real.exp f) * (2 - Real.exp y) < 0) :
    19 / 10 ≤ Real.exp f := by
  rcases mul_neg_iff.mp h with ⟨-, hy⟩ | ⟨hf, -⟩
  · calc (19 / 10 : ℝ)
        ≤ 2 * (f - y + 1) := by linarith [(abs_le.mp hnear).2]
      _ ≤ Real.exp y * Real.exp (f - y) := by
        gcongr
        · linarith [(abs_le.mp hnear).2]
        · linarith
        · exact Real.add_one_le_exp _
      _ = Real.exp f := by rw [← Real.exp_add, add_sub_cancel]
  · linarith

theorem growth_of_root {f v : ℝ} {log : History ℝ} (hlow : epsilon ≤ f) (hhigh : f ≤ 3)
    (hlog : ∀ x v, Valued log x v → v = 2 - Real.exp x) (hv : Valued log f v)
    (h : Solver.Crosses 1e-12 log f v) : 19 / 10 ≤ Real.exp f := by
  obtain rfl := hlog f v hv
  rcases h with hclose | ⟨y, w, hw, opposite, hnear⟩
  · have herror : |2 - Real.exp f| < 1 / 10 := ((close_zero_iff _).mp hclose).trans (by norm_num [epsilon])
    linarith [(abs_lt.mp herror).2]
  · obtain rfl := hlog y w hw
    refine growth_of_crossing (hnear.trans ?_) opposite
    have hpositive := epsilon_pos.trans_le hlow
    unfold reach
    rw [abs_of_pos hpositive]
    calc Max.max 1e-12 epsilon + 4 * epsilon * f
        ≤ Max.max 1e-12 epsilon + 4 * epsilon * 3 := by
          have := epsilon_pos
          gcongr
      _ ≤ 1 / 100 := by norm_num [epsilon]

theorem error_eq (x : ℝ) : (1 : ℝ) - (1 / Real.exp (-(x * 1)) - 1) / 1 = 2 - Real.exp x := by
  rw [mul_one, Real.exp_neg, one_div, inv_inv]
  ring

/-- The first pass nearly doubles a unit in the first year. -/
theorem first_forward {nodes : List ℝ} (h : forwards.passes doubling frame 1 = .ok nodes) :
    nodes.length = 3 ∧ ∃ f, nodes[0]? = some f ∧ nodes[1]? = some f ∧ 19 / 10 ≤ Real.exp f := by
  have hpass : forwards.pass doubling frame 0 (List.replicate 3 forwards.kind.initialValue) = .ok nodes := h
  obtain ⟨working, range, root, hs⟩ := CurveSpec.pass_ok hpass (i := 0) Nat.two_pos
  have hkind : forwards.kind ≠ .discount := nofun
  have hworking : working.length = 3 := hs.length_eq
  refine ⟨CurveSpec.solveFrom_length hpass, root, ?_, ?_, ?_⟩
  · rw [hs.kept 0 (Nat.zero_le _), CurveKind.place_first hkind (by omega)]
  · rw [hs.kept 1 le_rfl, CurveKind.place_at (by omega)]
  · have hsolver : forwards.solver.algorithm ≠ .falsePosition := nofun
    obtain ⟨hlow, hhigh⟩ := hs.bounds
    obtain ⟨v, hv, hcrosses⟩ := Solver.root_crosses hsolver _ _ _ _ _ _ hs.found
    refine growth_of_root hlow (hhigh.trans_eq lit_three) (fun x v hv => ?_) hv hcrosses
    have hflat : ∀ j ≤ 0, (forwards.kind.place working x 1)[j]? = some x := by
      intro j hj
      obtain rfl := Nat.le_zero.mp hj
      exact CurveKind.place_first hkind (by omega) x
    have hvalue : (forwards.objective doubling frame 0 1 deposit x working).1 =
        .ok (1 - (1 / Real.exp (-(x * 1)) - 1) / 1) :=
      CurveSpec.objective_flat doubling (CurveSpec.frame_ok forwards_frame) (i := 0) rfl hworking rfl rfl rfl rfl
        rfl yearFraction_stop hflat
    rw [← error_eq x]
    exact Except.ok.inj ((CurveSpec.objective_evaluated hv).symm.trans hvalue)

/-- So the longer deposit earns too much over both years, whatever its node. -/
theorem longer_unpriced {nodes : List ℝ} : ¬forwards.SolvedAnyway doubling frame nodes 1 longer := by
  rintro ⟨hreached, -, v, hclose, hv⟩
  obtain ⟨hlength, f, hzero, hone, hgrowth⟩ := first_forward hreached
  have hflat : ∀ j ≤ 1, (forwards.kind.place nodes 1 2)[j]? = some f := by
    intro j hj
    rw [CurveKind.place_before (.inr (by decide)) (Nat.lt_succ_of_le hj)]
    rcases Nat.le_one_iff_eq_zero_or_eq_one.mp hj with rfl | rfl
    · exact hzero
    · exact hone
  have hvalue : (forwards.objective doubling frame 0 2 longer 1 nodes).1 =
      .ok (1 - (1 / Real.exp (-(f * (1 + 1))) - 1) / (1 + 1)) :=
    CurveSpec.objective_flat doubling (CurveSpec.frame_ok forwards_frame) (i := 1) rfl hlength rfl rfl rfl rfl rfl
      yearFraction_final hflat
  obtain rfl := Except.ok.inj ((hv 1 epsilon_lt_one.le).symm.trans hvalue)
  have hsquare : 1 / Real.exp (-(f * (1 + 1))) = Real.exp f * Real.exp f := by
    rw [Real.exp_neg, one_div, inv_inv, mul_add, mul_one, Real.exp_add]
  have hgrowth' : 19 / 10 * (19 / 10) ≤ Real.exp f * Real.exp f := by gcongr
  rw [hsquare, not_close_zero] at hclose
  · cases hclose
  · rw [abs_of_neg (by linarith)]
    linarith

end TwoDeposits

/-! ## Curves over one deposit -/

namespace OneDeposit

open OneYear

/-- A log-linear curve of zero yields over the deposit. -/
noncomputable def yields : CurveSpec Nat ℝ := { spec with kind := .zeroYield, scheme := .logLinear }

/-- A backward-flat curve of discount factors that begins the day before the deposit. -/
noncomputable def factors : CurveSpec Nat ℝ := { spec with reference := .fixed eve, scheme := .backwardFlat }

theorem yearFraction_eve {date : Date} {days : Int} (h : DayCount.actual365Fixed.days eve date = days) :
    (DayCount.actual365Fixed.yearFraction eve date : ℝ) = days / 365 := by
  rw [DayCount.yearFraction, h]
  norm_num [ofInt_real, DayCount.yearLength]

theorem factors_framed : ∃ frame, factors.frame eve = .ok frame := by
  refine ⟨_, CurveSpec.frame_eq rfl (CurveSpec.stalled_none.mpr (.cons_cons ?_ (.singleton _)))⟩
  show (DayCount.actual365Fixed.yearFraction eve eve : ℝ) < DayCount.actual365Fixed.yearFraction eve stop
  have hdays : DayCount.actual365Fixed.days eve stop = 366 := by decide
  rw [DayCount.yearFraction_self, yearFraction_eve hdays]
  norm_num

/-- None of the three curves can be bootstrapped if the deposits pay interest. -/
theorem unsupported_pairings_unsolved :
    yields.Unsolved (fun _ => some 1) none ∧ TwoDeposits.forwards.Unsolved TwoDeposits.doubling none ∧
      factors.Unsolved (fun _ => some 1) none := by
  have hstart : [start, stop].IsChain (· < ·) := by decide
  have hboth : [start, stop, TwoDeposits.final].IsChain (· < ·) := by decide
  have heve : [eve, stop].IsChain (· < ·) := by decide
  have hspot : eve < deposit.start := by
    show eve < start
    decide
  obtain ⟨frame, hframe⟩ := factors_framed
  have hyields : CurveSpec.make .zeroYield (.fixed start) [deposit] .actual365Fixed .logLinear {} {} =
      .ok yields := CurveSpec.make_ordered validate hstart .zeroYield .actual365Fixed .logLinear {}
  have hforwards : CurveSpec.make .forwardRate (.fixed start) [deposit, TwoDeposits.longer] .actual365Fixed
      .forwardFlat { negativeRates := false } { algorithm := .bisection } = .ok TwoDeposits.forwards :=
    CurveSpec.make_ordered TwoDeposits.validate hboth .forwardRate .actual365Fixed .forwardFlat _
  have hfactors : CurveSpec.make .discount (.fixed eve) [deposit] .actual365Fixed .backwardFlat {} {} =
      .ok factors := CurveSpec.make_ordered validate heve .discount .actual365Fixed .backwardFlat {}
  have hresolved (date : Date) : (Reference.fixed date).resolve none = (.ok date : Outcome ℝ Date) := rfl
  have hquoted : deposit.referenceQuote (fun _ => some 1) = .ok (1 : ℝ) := rfl
  obtain ⟨hrates, -, -⟩ := CurveSpec.unsupported_pairings hyields (hresolved start)
    (CurveSpec.checkInstruments_single rfl (List.isChain_pair.mp hstart) hquoted) frame_spec
  obtain ⟨-, hflat, -⟩ := CurveSpec.unsupported_pairings hforwards (hresolved start)
    TwoDeposits.forwards_checked TwoDeposits.forwards_frame
  obtain ⟨-, -, hlevel⟩ := CurveSpec.unsupported_pairings hfactors (hresolved eve)
    (CurveSpec.checkInstruments_single rfl (List.isChain_pair.mp heve) hquoted) hframe
  refine ⟨hrates nofun rfl rfl, (hflat rfl rfl).resolve_right ?_, ?_⟩
  · rintro ⟨nodes, hanyway⟩
    exact TwoDeposits.longer_unpriced (hanyway 1 TwoDeposits.longer le_rfl rfl)
  · rcases hlevel rfl rfl deposit rfl hspot with hzero | hunsolved | ⟨-, quote, level, hquote, hidle, hclose⟩
    · have hdays : DayCount.actual365Fixed.days eve start = 1 := by decide
      rw [show deposit.start = start from rfl, yearFraction_eve hdays] at hzero
      norm_num at hzero
    · exact hunsolved
    · obtain rfl : (1 : ℝ) = quote := Except.ok.inj hquote
      obtain rfl : (0 : ℝ) = level := Except.ok.inj hidle
      rw [not_close_zero (by norm_num)] at hclose
      cases hclose

/-- The deposit in doubles. -/
def double : Instrument Nat Float :=
  .deposit (.of 0)
    { start, stop
      accrual := DayCount.actual365Fixed.yearFraction start stop
      ordered := loan.ordered
      accrual_pos := by decide +kernel }

/-- A backward-flat curve of discount factors that begins the day before it. -/
def doubles : CurveSpec Nat Float := ⟨.discount, .fixed eve, [double], .actual365Fixed, .backwardFlat, {}, {}⟩

/-- **An unsupported pairing that is bootstrapped.** The deposit settles after the reference date and is quoted
at a rate of zero. -/
theorem unsupported_pairing_published :
    CurveSpec.make .discount (.fixed eve) [double] .actual365Fixed .backwardFlat {} {} = .ok doubles ∧
      eve < double.start ∧ ∃ curve, doubles.bootstrap (fun _ => some 0.0) none = .ok curve := by
  have hvalid : ({} : BootstrapConfig Float).validate = .ok () := rfl
  have hlater : [eve, stop].IsChain (· < ·) := by decide
  have hspot : eve < double.start := by
    show eve < start
    decide
  have hbootstrap : (doubles.bootstrap (fun _ => some 0.0) none).toBool = true := by
    decide +kernel
  refine ⟨CurveSpec.make_ordered hvalid hlater .discount .actual365Fixed .backwardFlat {}, hspot, ?_⟩
  cases hcurve : doubles.bootstrap (fun _ => some 0.0) none with
  | error e =>
    rw [hcurve] at hbootstrap
    exact absurd hbootstrap Bool.false_ne_true
  | ok curve => exact ⟨curve, rfl⟩

end OneDeposit

end RateCurves
