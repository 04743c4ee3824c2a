import RateCurves.Proofs.Bootstrap.Repricing

/-!
# Deposit strips

The node of a deposit from the reference date has a closed form: at the rate `q` over the time `τ` one
unit grows to `1 + q * τ`, and the discount factor is the reciprocal of that. The error of the deposit
rises with the value of the node and vanishes there. So a sign change of the error near the root encloses
the closed form (`DepositError.near_of_opposite`), and where the error is close to zero the root is close
to it, because no deposit is longer than a million years (`DepositError.near_of_close`). An objective reads
its own node and the one at the reference date, whatever the scheme, the pass and the other deposits
(`CurveSpec.Published.deposit_tried`), so that every node of a strip is near its closed form
(`CurveSpec.bootstrap_deposits`).
-/

namespace RateCurves

open Scalar

/-! ## The error of a deposit -/

/-- The error of a deposit at the rate `q` over the time `τ` when the discount factor at its maturity is
`x`. -/
noncomputable def depositError (q τ x : ℝ) : ℝ := q - (1 / x - 1) / τ

namespace DepositError

variable {q τ x y : ℝ}

theorem growth_eq (hτ : 0 < τ) : 1 + q * τ = 1 / x + τ * depositError q τ x := by
  unfold depositError
  field_simp
  ring

theorem lt_of_neg (hτ : 0 < τ) (hx : 0 < x) (hgrowth : 0 < 1 + q * τ) (h : depositError q τ x < 0) :
    x < 1 / (1 + q * τ) := by
  rw [lt_one_div hx hgrowth, growth_eq (x := x) hτ]
  linarith [mul_neg_of_pos_of_neg hτ h]

theorem lt_of_pos (hτ : 0 < τ) (hx : 0 < x) (h : 0 < depositError q τ x) :
    0 < 1 + q * τ ∧ 1 / (1 + q * τ) < x := by
  have hgrowth : 1 / x < 1 + q * τ := by
    rw [growth_eq (x := x) hτ]
    linarith [mul_pos hτ h]
  have hpositive : 0 < 1 + q * τ := (one_div_pos.mpr hx).trans hgrowth
  exact ⟨hpositive, (one_div_lt hx hpositive).mp hgrowth⟩

/-- Between errors of opposite signs lies the closed form. -/
theorem near_of_opposite (hτ : 0 < τ) (hx : 0 < x) (hy : 0 < y)
    (h : depositError q τ x * depositError q τ y < 0) :
    0 < 1 + q * τ ∧ |x - 1 / (1 + q * τ)| ≤ |y - x| := by
  rcases mul_neg_iff.mp h with ⟨hpos, hneg⟩ | ⟨hneg, hpos⟩
  · obtain ⟨hgrowth, hbelow⟩ := lt_of_pos hτ hx hpos
    have habove := lt_of_neg hτ hy hgrowth hneg
    refine ⟨hgrowth, ?_⟩
    rw [abs_of_pos (by linarith), abs_of_neg (by linarith)]
    linarith
  · obtain ⟨hgrowth, hbelow⟩ := lt_of_pos hτ hy hpos
    have habove := lt_of_neg hτ hx hgrowth hneg
    refine ⟨hgrowth, ?_⟩
    rw [abs_of_neg (by linarith), abs_of_pos (by linarith)]
    linarith

theorem worth_of_close (hτ : 0 < τ) (hlong : τ ≤ 1000000) (hx : 0 < x) (hceiling : x ≤ 3)
    (h : close (depositError q τ x) 0 = true) : |x * (τ * depositError q τ x)| ≤ epsilon / 8 := by
  have herror := ((close_zero_iff _).mp h).le
  have htolerance : 3 * (1000000 * ((42 * epsilon) * (42 * epsilon))) ≤ (epsilon : ℝ) / 8 := by
    norm_num [epsilon]
  rw [abs_mul, abs_mul, abs_of_pos hx, abs_of_pos hτ]
  calc x * (τ * |depositError q τ x|)
      ≤ 3 * (1000000 * ((42 * epsilon) * (42 * epsilon))) := by gcongr
    _ ≤ epsilon / 8 := htolerance

/-- Where the error is close to zero, so is the discount factor to the closed form. -/
theorem near_of_close (hτ : 0 < τ) (hlong : τ ≤ 1000000) (hx : 0 < x) (hceiling : x ≤ 3)
    (h : close (depositError q τ x) 0 = true) :
    0 < 1 + q * τ ∧ |x - 1 / (1 + q * τ)| ≤ epsilon := by
  have hworth := worth_of_close hτ hlong hx hceiling h
  have hepsilon : (0 : ℝ) < epsilon ∧ (epsilon : ℝ) < 1 := ⟨epsilon_pos, epsilon_lt_one⟩
  generalize hw : x * (τ * depositError q τ x) = w at hworth
  have hgrowth : x * (1 + q * τ) = 1 + w := by
    rw [growth_eq (x := x) hτ, mul_add, mul_one_div_cancel hx.ne', hw]
  have hbounds := abs_le.mp hworth
  have hdivisor : 7 / 8 ≤ 1 + w := by linarith
  have hpositive : 0 < 1 + q * τ := by
    have hproduct : 0 < x * (1 + q * τ) := by linarith
    exact pos_of_mul_pos_right hproduct hx.le
  have hdistance : x - 1 / (1 + q * τ) = x * w / (1 + w) := by
    rw [← hgrowth]
    field_simp
    linarith
  refine ⟨hpositive, ?_⟩
  rw [hdistance, abs_div, abs_mul, abs_of_pos hx, abs_of_pos (by linarith : 0 < 1 + w),
    div_le_iff₀ (by linarith)]
  calc x * |w| ≤ 3 * (epsilon / 8) := by gcongr
    _ ≤ epsilon * (7 / 8) := by linarith
    _ ≤ epsilon * (1 + w) := mul_le_mul_of_nonneg_left hdivisor hepsilon.1.le

end DepositError

/-! ## Deposits -/

variable {κ : Type}

theorem Instrument.depositBetween_ok {rate : Handle κ} {start stop : Date} {dayCount : DayCount}
    {instrument : Instrument κ ℝ} (h : depositBetween rate start stop dayCount = .ok instrument) :
    ∃ loan, instrument = .deposit rate loan ∧ loan.start = start ∧ loan.stop = stop ∧
      loan.accrual = dayCount.yearFraction start stop := by
  obtain ⟨loan, hloan, hinstrument⟩ := Outcome.bind_ok.mp h
  obtain ⟨⟨τ, ordered, positive⟩, hτ, hloan⟩ := Outcome.bind_ok.mp hloan
  cases hinstrument
  cases hloan
  refine ⟨_, rfl, rfl, rfl, ?_⟩
  unfold accrual at hτ
  simp only at hτ
  split_ifs at hτ
  cases hτ
  rfl

theorem Instrument.depositBetween_eq (rate : Handle κ) {start stop : Date} {dayCount : DayCount} {τ : ℝ}
    (hordered : start < stop) (hτ : dayCount.yearFraction start stop = τ) (hpositive : 0.0 < τ) :
    depositBetween rate start stop dayCount = .ok (.deposit rate ⟨start, stop, τ, hordered, hpositive⟩) := by
  subst hτ
  have haccrual : accrual dayCount start stop = .ok ⟨_, hordered, hpositive⟩ := by
    unfold accrual
    simp only [hordered, hpositive, dif_pos]
  unfold depositBetween Loan.between
  rw [haccrual]
  rfl

namespace CurveSpec

variable {spec : CurveSpec κ ℝ} {read : κ → Option ℝ} {reference : Date} {frame : Frame ℝ}

theorem Solved.least_le {iteration : Nat} {before after : List ℝ} {i : Nat} {instrument : Instrument κ ℝ}
    {working : List ℝ} {range : SearchRange ℝ} {root : ℝ}
    (hs : spec.Solved read frame iteration before after i instrument working range root)
    (hkind : spec.kind = .discount) {x v : ℝ}
    (hv : Valued (spec.tried read frame iteration (i + 1) instrument working range) x v) : epsilon ≤ x := by
  obtain ⟨inside, -⟩ := Solver.root_valued spec.solver
    (spec.objective read frame iteration (i + 1) instrument) spec.config.accuracy range.guess range.low
    range.high working
  obtain ⟨guess, -, hrange⟩ := Outcome.bind_ok.mp hs.searched
  cases hrange
  have hleast := (inside.of_valued hv).1
  rw [hkind] at hleast
  exact hleast

theorem Published.discount_le_three {iteration : Nat} {before : List ℝ} {curve : NodeCurve ℝ}
    (h : spec.Published read frame iteration before curve) (hkind : spec.kind = .discount) {i : Nat} {x : ℝ}
    (hx : curve.data[i]? = some x) : x ≤ 3 := by
  induction i generalizing x with
  | zero =>
    obtain rfl := Option.some.inj ((h.first_discount hkind).symm.trans hx)
    norm_num
  | succ i ih =>
    have hi := Nat.lt_of_succ_lt (List.getElem?_eq_some_iff.mp hx).1
    have hbefore := List.getElem?_eq_getElem hi
    have hbound := (h.bounds hbefore hx).2
    rw [hkind] at hbound
    simp only at hbound
    split_ifs at hbound
    · exact hbound
    · exact hbound.trans (ih hbefore)

section published

variable {iteration : Nat} {before : List ℝ} {curve : NodeCurve ℝ} {i : Nat} {rate : Handle κ}
  {loan : Loan ℝ} {working : List ℝ} {range : SearchRange ℝ} {root : ℝ}
  (h : spec.Published read frame iteration before curve)
  (hs : spec.Solved read frame iteration before curve.data i (.deposit rate loan) working range root)
include h hs

/-- Under every scheme and in every pass, what the search for the node of a deposit has seen at a value
is the error of the deposit with that discount factor. -/
theorem Published.deposit_tried (hkind : spec.kind = .discount) (hframe : spec.Framed reference frame)
    (hstart : loan.start = reference) {q : ℝ}
    (hquote : (Instrument.deposit rate loan).referenceQuote read = .ok q) {x v : ℝ}
    (hv : Valued (spec.tried read frame iteration (i + 1) (.deposit rate loan) working range) x v) :
    v = depositError q loan.accrual x := by
  have hobjective := objective_evaluated hv
  obtain ⟨c, hc, -⟩ := Outcome.bind_ok.mp hobjective
  have hfirst : working[0]? = some 1 := by
    rw [solveFrom_before hs.reached (.inl hkind) Nat.one_pos, passes_first hkind h.reached, lit_one]
  have herror := objective_deposit hkind hframe hs.instrument_eq hstart (h.working_length hs) hfirst hquote hc
  exact Except.ok.inj (hobjective.symm.trans herror)

theorem Published.deposit_near (hkind : spec.kind = .discount) (hframe : spec.Framed reference frame)
    (hsolver : spec.solver.algorithm ≠ .falsePosition) (hstart : loan.start = reference)
    (hlong : loan.accrual ≤ 1000000) {q : ℝ}
    (hquote : (Instrument.deposit rate loan).referenceQuote read = .ok q) :
    0 < 1 + q * loan.accrual ∧ |root - 1 / (1 + q * loan.accrual)| ≤
      Max.max spec.config.accuracy epsilon + 4 * epsilon * |root| := by
  have error_eq {x v : ℝ} (hv : Valued (spec.tried read frame iteration (i + 1) (.deposit rate loan) working
      range) x v) := h.deposit_tried hs hkind hframe hstart hquote hv
  have positive {x v : ℝ} (hv : Valued (spec.tried read frame iteration (i + 1) (.deposit rate loan) working
      range) x v) : 0 < x := epsilon_pos.trans_le (hs.least_le hkind hv)
  have hτ : 0 < loan.accrual := lit_zero ▸ loan.accrual_pos
  have hroot : root ≤ 3 := h.discount_le_three hkind (h.root_kept hs)
  have hslack : 0 ≤ 4 * epsilon * |root| := by
    have := epsilon_pos
    positivity
  obtain ⟨v, hv, hclose | ⟨y, w, hw, opposite, hnear⟩⟩ := Solver.root_crosses hsolver _ _ _ _ _ _ hs.found
  · obtain rfl := error_eq hv
    obtain ⟨hgrowth, hle⟩ := DepositError.near_of_close hτ hlong (positive hv) hroot hclose
    have hfloor := le_max_right spec.config.accuracy epsilon
    exact ⟨hgrowth, by linarith⟩
  · obtain rfl := error_eq hv
    obtain rfl := error_eq hw
    obtain ⟨hgrowth, hle⟩ := DepositError.near_of_opposite hτ (positive hv) (positive hw) opposite
    exact ⟨hgrowth, hle.trans hnear⟩

end published

theorem bootstrap_quoted {today : Option Date} {curve : NodeCurve ℝ}
    (h : spec.bootstrap read today = .ok curve) :
    ∀ instrument ∈ spec.instruments, ∃ q, instrument.referenceQuote read = .ok q := by
  obtain ⟨reference, -, h⟩ := Outcome.bind_ok.mp h
  obtain ⟨⟨⟩, hchecked, -⟩ := Outcome.bind_ok.mp h
  intro instrument hmem
  exact (checkInstruments_ok.mp hchecked instrument hmem).2

/-- **Deposit strips have the closed-form solution.** A curve of discount factors over deposits from its
reference date, in any order, with their own quotes and day counts, under any scheme and with or without
negative rates, has the factor one at the reference date. If it is solved by bisection or by Brent's method,
every other node, that of a deposit at the rate `q` over the time `τ`, is `1 / (1 + q * τ)` up to the accuracy
asked for, but no finer than `epsilon`, and four units of `epsilon` relative to the node. -/
theorem bootstrap_deposits {reference : Reference} {instruments : List (Instrument κ ℝ)}
    {dayCount : DayCount} {scheme : Scheme} {config : BootstrapConfig ℝ} {solver : Solver}
    {today : Option Date} {start : Date} {curve : NodeCurve ℝ}
    (hmake : CurveSpec.make .discount reference instruments dayCount scheme config solver = .ok spec)
    (hstart : reference.resolve today = (.ok start : Outcome ℝ Date))
    (hdeposits : ∀ instrument ∈ instruments, ∃ rate maturity counter,
      Instrument.depositBetween rate start maturity counter = .ok instrument)
    (hsolver : solver.algorithm ≠ .falsePosition) (h : spec.bootstrap read today = .ok curve) :
    spec.instruments.Perm instruments ∧ curve.data.length = instruments.length + 1 ∧
      curve.data[0]? = some 1 ∧
      ∀ (i : Nat) instrument, spec.instruments[i]? = some instrument →
        ∃ rate loan q node, instrument = .deposit rate loan ∧ instrument.referenceQuote read = .ok q ∧
          curve.dates[i + 1]? = some loan.stop ∧ curve.data[i + 1]? = some node ∧
          0 < 1 + q * loan.accrual ∧
          |node - 1 / (1 + q * loan.accrual)| ≤ Max.max config.accuracy epsilon + 4 * epsilon * |node| := by
  obtain ⟨ordered, hperm, rfl⟩ := make_ok hmake
  obtain ⟨date, frame, iteration, before, hdate, hframe, hpublished⟩ := bootstrap_ok h
  obtain rfl : date = start := Except.ok.inj (hdate.symm.trans hstart)
  have hframed := frame_ok hframe
  refine ⟨hperm, by rw [hpublished.length, hperm.length_eq], hpublished.first_discount rfl, ?_⟩
  intro i instrument hinstrument
  obtain ⟨hi, hget⟩ := List.getElem?_eq_some_iff.mp hinstrument
  obtain ⟨working, range, root, hs⟩ := pass_ok hpublished.solved hi
  rw [hget] at hs
  obtain ⟨rate, maturity, counter, hdeposit⟩ :=
    hdeposits instrument (hperm.subset (List.mem_of_getElem? hinstrument))
  obtain ⟨loan, rfl, hfrom, -, haccrual⟩ := Instrument.depositBetween_ok hdeposit
  have hlong : loan.accrual ≤ 1000000 := by
    rw [haccrual]
    exact counter.yearFraction_le_million date maturity
  obtain ⟨q, hquote⟩ := bootstrap_quoted h _ (List.mem_of_getElem? hinstrument)
  obtain ⟨hgrowth, hnear⟩ := hpublished.deposit_near hs rfl hframed hsolver hfrom hlong hquote
  refine ⟨rate, loan, q, root, rfl, hquote, ?_, hpublished.root_kept hs, hgrowth, hnear⟩
  rw [hpublished.curve_eq.2.2.1]
  exact hframed.date_get hinstrument

end CurveSpec

namespace TwoDeposits

open OneYear
open OneDeposit (deposit)

/-- The nodes of both deposits are near their closed forms, one and the least discount factor. -/
theorem closed_form : ∃ curve,
    CurveSpec.make .discount (.fixed start) [deposit, longer] .actual365Fixed .linear { negativeRates := false }
        { algorithm := .bisection } = .ok spec ∧
      (Reference.fixed start).resolve none = (.ok start : Outcome ℝ Date) ∧
      ({ algorithm := .bisection } : Solver).algorithm ≠ .falsePosition ∧ spec.bootstrap quote none = .ok curve ∧
      ∃ near far : ℝ, curve.data[1]? = some near ∧ curve.data[2]? = some far ∧
        |near - 1 / (1 + 0 * 1)| ≤ Max.max 1e-12 epsilon + 4 * epsilon * |near| ∧
        |far - 1 / (1 + (1 / epsilon - 1) / (1 + 1) * (1 + 1))| ≤
          Max.max 1e-12 epsilon + 4 * epsilon * |far| := by
  obtain ⟨curve, hcurve, -⟩ := bootstrap_spec
  have hdeposits : ∀ instrument ∈ [deposit, longer], ∃ rate maturity counter,
      Instrument.depositBetween rate start maturity counter = .ok instrument := by
    intro instrument hmem
    rcases List.mem_cons.mp hmem with rfl | hmem
    · exact ⟨.of 0, stop, .actual365Fixed, Instrument.depositBetween_eq _ (by decide) yearFraction_stop (by norm_num)⟩
    · rw [List.mem_singleton.mp hmem]
      exact ⟨.of 1, final, .actual365Fixed, Instrument.depositBetween_eq _ (by decide) yearFraction_final (by norm_num)⟩
  have hreference : (Reference.fixed start).resolve none = (.ok start : Outcome ℝ Date) := rfl
  obtain ⟨-, -, -, hnodes⟩ := CurveSpec.bootstrap_deposits make_spec hreference hdeposits nofun hcurve
  obtain ⟨_, _, _, near, hdeposit, hquote, -, hnear, -, hclose⟩ := hnodes 0 deposit rfl
  cases hdeposit
  cases hquote
  obtain ⟨_, _, _, far, hdeposit, hquote, -, hfar, -, hclose'⟩ := hnodes 1 longer rfl
  cases hdeposit
  cases hquote
  exact ⟨curve, make_spec, hreference, nofun, hcurve, near, far, hnear, hfar, hclose, hclose'⟩

end TwoDeposits

end RateCurves
