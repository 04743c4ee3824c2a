import RateCurves.Proofs.Bootstrap.Frame
import RateCurves.Proofs.Bootstrap.Run
import RateCurves.Proofs.RootSearch.Solver

/-!
# Strips of deposits

On a curve of discount factors a deposit from the reference date reads two nodes, its own one and that at the
reference date. So its objective is the same function of its node under every scheme and in every pass
(`CurveSpec.objective_deposit`), wherever a curve can be fitted (`CurveSpec.partialCurve_exists`). A deposit that
is quoted at what the lower bound implies is solved there (`CurveSpec.solveSegment_lowest`), which settles the nodes
of two short strips without a run of the solver (`OneDeposit.bootstrap_spec`, `TwoDeposits.bootstrap_spec`).
-/

namespace RateCurves

open Scalar

variable {κ : Type}

/-! ## Curves that objectives look at -/

theorem CurveKind.epsilon_lt_ceiling : (epsilon : ℝ) < CurveKind.ceiling := by
  have := epsilon_lt_one
  unfold CurveKind.ceiling
  linarith [lit_three]

namespace CurveSpec

variable {spec : CurveSpec κ ℝ} {read : κ → Option ℝ} {reference : Date} {frame : Frame ℝ}

theorem stage_ne_logLinear (hlog : spec.scheme ≠ .logLinear) (iteration i : Nat) :
    (spec.stage iteration i).1 ≠ .logLinear := by
  unfold stage
  split_ifs
  · exact hlog
  · exact nofun
  · exact hlog

section framed

variable (hframe : spec.Framed reference frame) {data : List ℝ}
  (hlength : data.length = spec.instruments.length + 1)
include hframe hlength

/-- Every scheme but the log-linear one fits all nodes, as long as there are two of them. -/
theorem partialCurve_exists {scheme : Scheme} (hlog : scheme ≠ .logLinear) {span : Nat} (htwo : 2 ≤ span)
    (hsome : 0 < spec.instruments.length) : ∃ c, spec.partialCurve frame scheme span data = .ok c := by
  refine NodeCurve.fit_exists ?_ (hframe.times_lt.sublist (List.take_sublist ..)) ?_ fun h => absurd h hlog
  · rw [List.length_take, hframe.times_length]
    omega
  · rw [List.length_take, List.length_take, hlength, hframe.times_length]

theorem searchRange_exists (hkind : spec.kind = .discount) (hlog : spec.scheme ≠ .logLinear) {i : Nat}
    {instrument : Instrument κ ℝ} (hi : spec.instruments[i]? = some instrument) (iteration : Nat) :
    ∃ guess, spec.searchRange frame iteration (i + 1) data =
      .ok { guess, low := epsilon, high := spec.kind.greatest spec.config.negativeRates (i + 1) data } := by
  have hsome : 0 < spec.instruments.length := Nat.zero_lt_of_lt (List.getElem?_eq_some_iff.mp hi).1
  have hleast : (spec.kind.least spec.config.negativeRates : ℝ) = epsilon := by rw [hkind]; rfl
  obtain ⟨guess, hguess⟩ : ∃ guess, spec.firstGuess frame iteration (i + 1) data = .ok guess := by
    unfold firstGuess
    split_ifs with hiteration hfirst
    · exact ⟨_, rfl⟩
    · -- the curve solved so far, extended to the next node
      obtain ⟨c, hc⟩ := partialCurve_exists hframe hlength hlog hfirst hsome
      have htime : 0 ≤ frame.times.getD (i + 1) 0.0 := by
        rw [List.getD_eq_getElem?_getD, hframe.time_get hi]
        exact spec.dayCount.yearFraction_nonneg (hframe.later hi).le
      rw [hc, hkind]
      exact ⟨_, CurveView.discount_eq (NodeCurve.checkTime_view htime (.inl rfl))⟩
    · exact ⟨_, rfl⟩
  exact ⟨_, Outcome.bind_ok.mpr ⟨guess, hguess, by rw [hleast]; rfl⟩⟩

end framed

end CurveSpec

/-! ## Objectives of deposits -/

theorem Instrument.deposit_priced {c : CurveView ℝ} {read : κ → Option ℝ} {rate : Handle κ} {loan : Loan ℝ}
    {x observed : ℝ} (hbefore : c.discountOn loan.start = .ok 1) (hafter : c.discountOn loan.stop = .ok x)
    (hquote : (Instrument.deposit rate loan).referenceQuote read = .ok observed) :
    (Instrument.deposit rate loan).quoteError read c = .ok (observed - (1 / x - 1) / loan.accrual) := by
  unfold quoteError
  rw [hquote]
  show (do
    let implied ← (do
      let before ← c.discountOn loan.start
      let after ← c.discountOn loan.stop
      return (before / after - 1.0) / loan.accrual : Outcome ℝ ℝ)
    return observed - implied : Outcome ℝ ℝ) = _
  rw [hbefore, hafter, lit_one]
  rfl

theorem Instrument.deposit_quoteError {dayCount : DayCount} {scheme : Scheme} {dates : List Date}
    {times data : List ℝ} {c : NodeCurve ℝ}
    (h : NodeCurve.fit .discount dayCount scheme dates times data = .ok c) {read : κ → Option ℝ}
    {rate : Handle κ} {loan : Loan ℝ} {k : Nat} {t x observed : ℝ} (htime : times[0]? = some 0)
    (hdata : data[0]? = some 1) (hstart : dates.headD .first = loan.start) (hnode : times[k]? = some t)
    (hstop : dayCount.yearFraction loan.start loan.stop = t) (hx : data[k]? = some x)
    (hquote : (Instrument.deposit rate loan).referenceQuote read = .ok observed) :
    (Instrument.deposit rate loan).quoteError read (c.view true) =
      .ok (observed - (1 / x - 1) / loan.accrual) := by
  have ht : 0 ≤ t := hstop ▸ dayCount.yearFraction_nonneg loan.ordered.le
  have hbefore : (c.view true).discountOn loan.start = .ok 1 :=
    NodeCurve.discountOn_node h htime hdata (by rw [hstart, DayCount.yearFraction_self]) le_rfl
  have hafter : (c.view true).discountOn loan.stop = .ok x :=
    NodeCurve.discountOn_node h hnode hx (by rw [hstart, hstop]) ht
  exact deposit_priced hbefore hafter hquote

namespace CurveSpec

variable {spec : CurveSpec κ ℝ} {read : κ → Option ℝ} {reference : Date} {frame : Frame ℝ}

theorem checkInstruments_single {instrument : Instrument κ ℝ} {q : ℝ} (hspec : spec.instruments = [instrument])
    (hlater : reference < instrument.maturity) (hquote : instrument.referenceQuote read = .ok q) :
    spec.checkInstruments read reference = .ok () := by
  rw [checkInstruments_ok, hspec]
  exact List.forall_mem_singleton.mpr ⟨hlater, q, hquote⟩

theorem checkInstruments_pair {first second : Instrument κ ℝ} {p q : ℝ} (hspec : spec.instruments = [first, second])
    (hfirst : reference < first.maturity) (hsecond : reference < second.maturity)
    (hquote : first.referenceQuote read = .ok p) (hquote' : second.referenceQuote read = .ok q) :
    spec.checkInstruments read reference = .ok () := by
  rw [checkInstruments_ok, hspec]
  exact List.forall_mem_cons.mpr ⟨⟨hfirst, p, hquote⟩, List.forall_mem_singleton.mpr ⟨hsecond, q, hquote'⟩⟩

/-- All nodes together. -/
theorem fit_nodes (hframe : spec.Framed reference frame) (hlog : spec.scheme ≠ .logLinear)
    (hsome : 0 < spec.instruments.length) {data : List ℝ} (hlength : data.length = spec.instruments.length + 1) :
    ∃ c, NodeCurve.fit spec.kind spec.dayCount spec.scheme frame.dates frame.times data = .ok c :=
  NodeCurve.fit_exists (by rw [hframe.times_length]; omega) hframe.times_lt
    (by rw [hlength, hframe.times_length]) fun h => absurd h hlog

section deposit

variable (hkind : spec.kind = .discount) (hframe : spec.Framed reference frame) {i : Nat} {rate : Handle κ}
  {loan : Loan ℝ} (hi : spec.instruments[i]? = some (.deposit rate loan)) (hstart : loan.start = reference)
  {data : List ℝ} (hlength : data.length = spec.instruments.length + 1) (hfirst : data[0]? = some 1)
include hkind hframe hi hstart hlength hfirst

/-- If a curve can be fitted, the objective of a deposit from the reference date is its error with the discount
factor that is tried. -/
theorem objective_deposit {q : ℝ} (hquote : (Instrument.deposit rate loan).referenceQuote read = .ok q)
    {iteration : Nat} {x : ℝ} {c : NodeCurve ℝ}
    (hc : spec.partialCurve frame (spec.stage iteration (i + 1)).1 (spec.stage iteration (i + 1)).2
      (spec.kind.place data x (i + 1)) = .ok c) :
    (spec.objective read frame iteration (i + 1) (.deposit rate loan) x data).1 =
      .ok (q - (1 / x - 1) / loan.accrual) := by
  have hbound := (List.getElem?_eq_some_iff.mp hi).1
  have hspan := stage_span iteration hbound
  have hfit := hc
  unfold partialCurve at hfit
  rw [hkind] at hfit
  have hvalue : ((CurveKind.discount.place data x (i + 1)).take
      (spec.stage iteration (i + 1)).2)[i + 1]? = some x := by
    rw [List.getElem?_take_of_lt (by omega), CurveKind.place_at (by omega)]
  rw [objective_apply]
  refine Outcome.bind_ok.mpr ⟨c, hc, ?_⟩
  refine Instrument.deposit_quoteError hfit (hframe.times_first (by omega)) ?first ?start (hframe.time_take hi hspan)
    (by rw [hstart]; rfl) hvalue hquote
  case first =>
    rw [List.getElem?_take_of_lt (by omega), CurveKind.place_before (.inl rfl) (Nat.succ_pos i), hfirst]
  case start => rw [hframe.dates_take (by omega), hstart]

variable (hlog : spec.scheme ≠ .logLinear)
include hlog

theorem objective_fitted {q : ℝ} (hquote : (Instrument.deposit rate loan).referenceQuote read = .ok q)
    (iteration : Nat) (x : ℝ) :
    spec.objective read frame iteration (i + 1) (.deposit rate loan) x data =
      (.ok (q - (1 / x - 1) / loan.accrual), data.set (i + 1) x) := by
  have hbound := (List.getElem?_eq_some_iff.mp hi).1
  have hspan := stage_span iteration hbound
  have hscheme := stage_ne_logLinear hlog iteration (i + 1)
  obtain ⟨c, hc⟩ := partialCurve_exists hframe ((CurveKind.place_length spec.kind data x (i + 1)).trans hlength)
    hscheme (Nat.le_of_add_left_le hspan) (Nat.zero_lt_of_lt hbound)
  refine Prod.ext (objective_deposit hkind hframe hi hstart hlength hfirst hquote hc) ?_
  rw [objective_apply, CurveKind.place_other (.inl hkind)]

/-- A deposit on which one unit grows to the reciprocal of the least discount factor has that factor. -/
theorem solveSegment_lowest
    (hquote : (Instrument.deposit rate loan).referenceQuote read = .ok ((1 / epsilon - 1) / loan.accrual))
    (haccuracy : 0 < spec.config.accuracy) (hbudget : 0 < spec.solver.budget)
    (hproper : epsilon < spec.kind.greatest spec.config.negativeRates (i + 1) data) (iteration : Nat) :
    spec.solveSegment read frame iteration (i + 1) (.deposit rate loan) data =
      (.ok epsilon, data.set (i + 1) epsilon) := by
  obtain ⟨guess, hrange⟩ := searchRange_exists hframe hlength hkind hlog hi iteration
  have hlow := objective_fitted hkind hframe hi hstart hlength hfirst hlog hquote iteration epsilon
  rw [sub_self] at hlow
  rw [solveSegment_eq hrange]
  exact Solver.solve_low spec.solver haccuracy hproper hbudget hlow (close_self 0)

end deposit

end CurveSpec

/-! ## A strip of one deposit -/

namespace OneDeposit

open OneYear

/-- A deposit over a year. -/
noncomputable def deposit : Instrument Nat ℝ :=
  .deposit (.of 0) { start, stop, accrual := 1, ordered := by decide, accrual_pos := by norm_num }

/-- The loan of the deposit. -/
noncomputable def loan : Loan ℝ := { start, stop, accrual := 1, ordered := by decide, accrual_pos := by norm_num }

/-- The rate at which one unit grows to the reciprocal of the least discount factor. -/
noncomputable def quote : Nat → Option ℝ := fun _ => some (1 / epsilon - 1)

/-- A curve of discount factors over the deposit. -/
noncomputable def spec : CurveSpec Nat ℝ where
  kind := .discount
  reference := .fixed start
  instruments := [deposit]
  dayCount := .actual365Fixed
  scheme := .linear
  config := {}
  solver := {}

theorem accuracy_pos : (0 : ℝ) < spec.config.accuracy := by
  show (0 : ℝ) < 1e-12
  norm_num

theorem validate : (({} : BootstrapConfig ℝ).validate) = .ok () := by
  have haccuracy : (0.0 : ℝ) < 1e-12 := by norm_num
  unfold BootstrapConfig.validate
  simp only [haccuracy, isFinite_real, decide_true, Bool.and_true, Outcome.require, if_true]
  rfl

/-- The nodes of the curve. -/
noncomputable def frame : CurveSpec.Frame ℝ := ⟨[start, stop], [0, 1]⟩

theorem frame_spec : spec.frame start = .ok frame := by
  have htimes : [start, stop].map (DayCount.actual365Fixed.yearFraction start) = [(0 : ℝ), 1] := by
    rw [List.map_cons, List.map_cons, List.map_nil, DayCount.yearFraction_self, yearFraction_stop]
  exact CurveSpec.frame_of_times rfl htimes (List.isChain_pair.mpr one_pos)

theorem checked : spec.checkInstruments quote start = .ok () :=
  CurveSpec.checkInstruments_single rfl (by decide : start < stop) rfl

theorem bootstrap_spec : ∃ curve, spec.bootstrap quote none = .ok curve := by
  have hframed := CurveSpec.frame_ok frame_spec
  have hquote : deposit.referenceQuote quote = .ok ((1 / epsilon - 1) / 1) := by
    rw [div_one]
    rfl
  have hdeposit : spec.solveSegment quote frame 0 1 deposit [1, 1] = (.ok epsilon, [1, epsilon]) :=
    CurveSpec.solveSegment_lowest rfl hframed (i := 0) rfl rfl rfl rfl (by decide) hquote accuracy_pos
      (Nat.succ_pos 99) CurveKind.epsilon_lt_ceiling 0
  have hpass : spec.pass quote frame 0 [1, 1] = .ok [1, epsilon] := by
    show spec.solveFrom quote frame 0 1 [deposit] [1, 1] = _
    rw [CurveSpec.solveFrom, hdeposit]
    rfl
  have hsettle : spec.settle quote frame 25 0 [1, 1] = .ok [1, epsilon] := CurveSpec.settle_succ hpass
  have hinitial : (spec.kind.initialValue : ℝ) = 1 := lit_one
  have hlength : [(1 : ℝ), epsilon].length = spec.instruments.length + 1 := rfl
  obtain ⟨c, hc⟩ := CurveSpec.fit_nodes hframed (by decide) one_pos hlength
  refine ⟨c, CurveSpec.bootstrap_eq rfl checked frame_spec ?_ hc⟩
  show spec.settle quote frame 25 0 [spec.kind.initialValue, spec.kind.initialValue] = _
  rw [hinitial, hsettle]

end OneDeposit

/-! ## A strip of two deposits -/

namespace TwoDeposits

open OneYear
open OneDeposit (deposit)

/-- The end of the next year, 730 days after the start. -/
def final : Date := { stop with year := 2025, year_ge := by decide, year_le := by decide, day_le := by decide }

/-- A loan until then. -/
noncomputable def loan : Loan ℝ :=
  { start, stop := final, accrual := 1 + 1, ordered := (by decide : start < final), accrual_pos := by norm_num }

/-- A deposit over both years. -/
noncomputable def longer : Instrument Nat ℝ := .deposit (.of 1) loan

/-- The first deposit earns nothing, and on the longer one a unit grows to the reciprocal of the least discount
factor. -/
noncomputable def quote : Nat → Option ℝ
  | 0 => some 0
  | 1 => some ((1 / epsilon - 1) / (1 + 1))
  | _ => none

/-- A curve of discount factors over both deposits, without negative rates. -/
noncomputable def spec : CurveSpec Nat ℝ where
  kind := .discount
  reference := .fixed start
  instruments := [deposit, longer]
  dayCount := .actual365Fixed
  scheme := .linear
  config := { negativeRates := false }
  solver := { algorithm := .bisection }

theorem accuracy_pos : (0 : ℝ) < spec.config.accuracy := OneDeposit.accuracy_pos

theorem validate : ({ negativeRates := false } : BootstrapConfig ℝ).validate = .ok () := OneDeposit.validate

theorem yearFraction_final : (DayCount.actual365Fixed.yearFraction start final : ℝ) = 1 + 1 := by
  have : DayCount.actual365Fixed.days start final = 730 := by decide
  rw [DayCount.yearFraction, this]
  norm_num [ofInt_real, DayCount.yearLength]

/-- The nodes of the curve. -/
noncomputable def frame : CurveSpec.Frame ℝ := ⟨[start, stop, final], [0, 1, 1 + 1]⟩

theorem times_eq : frame.times = NodeCurve.timesOf .actual365Fixed frame.dates := by
  show _ = [start, stop, final].map (DayCount.actual365Fixed.yearFraction start)
  simp only [List.map_cons, List.map_nil, DayCount.yearFraction_self, yearFraction_stop, yearFraction_final]
  rfl

theorem frame_spec : spec.frame start = .ok frame :=
  CurveSpec.frame_of_times rfl times_eq.symm (.cons_cons one_pos (List.isChain_pair.mpr (lt_add_one 1)))

theorem checked : spec.checkInstruments quote start = .ok () :=
  CurveSpec.checkInstruments_pair rfl (by decide : start < stop) (by decide : start < final) rfl rfl

theorem objective_deposit (iteration : Nat) (x y z : ℝ) :
    spec.objective quote frame iteration 1 deposit x [1, y, z] = (.ok (0 - (1 / x - 1) / 1), [1, x, z]) :=
  CurveSpec.objective_fitted rfl (CurveSpec.frame_ok frame_spec) (i := 0) rfl rfl rfl rfl (by decide) rfl iteration x

theorem solve_deposit (iteration : Nat) (y z : ℝ) :
    spec.solveSegment quote frame iteration 1 deposit [1, y, z] = (.ok 1, [1, 1, z]) := by
  obtain ⟨guess, hrange⟩ : ∃ guess, spec.searchRange frame iteration 1 [1, y, z] =
      .ok { guess, low := epsilon, high := 1 } :=
    CurveSpec.searchRange_exists (CurveSpec.frame_ok frame_spec) rfl rfl (by decide) (i := 0) rfl iteration
  have hopen : close (0 - (1 / epsilon - 1) / 1 : ℝ) 0 = false := by
    apply not_close_zero
    norm_num [epsilon]
  have hclose : close (0 - (1 / 1 - 1) / 1 : ℝ) 0 = true := by norm_num
  rw [CurveSpec.solveSegment_eq hrange]
  exact Solver.solve_high spec.solver accuracy_pos epsilon_lt_one (by decide)
    (objective_deposit iteration epsilon y z) hopen (objective_deposit iteration 1 epsilon z) hclose

theorem pass_eq (iteration : Nat) (y z : ℝ) :
    spec.pass quote frame iteration [1, y, z] = .ok [1, 1, epsilon] := by
  have hproper : epsilon < spec.kind.greatest spec.config.negativeRates 2 [1, 1, z] := epsilon_lt_one
  have hlonger : spec.solveSegment quote frame iteration 2 longer [1, 1, z] = (.ok epsilon, [1, 1, epsilon]) :=
    CurveSpec.solveSegment_lowest rfl (CurveSpec.frame_ok frame_spec) (i := 1) rfl rfl rfl rfl (by decide) rfl
      accuracy_pos (by decide) hproper iteration
  show spec.solveFrom quote frame iteration 1 [deposit, longer] [1, y, z] = _
  rw [CurveSpec.solveFrom, solve_deposit]
  show spec.solveFrom quote frame iteration 2 [longer] [1, 1, z] = _
  rw [CurveSpec.solveFrom, hlonger]
  rfl

theorem first_pass : spec.passes quote frame 1 = .ok [1, 1, epsilon] := by
  have hinitial : (spec.kind.initialValue : ℝ) = 1 := lit_one
  show spec.pass quote frame 0 (List.replicate 3 spec.kind.initialValue) = _
  rw [hinitial]
  exact pass_eq 0 1 1

/-- The second pass keeps the nodes of the first one. -/
theorem bootstrap_spec : ∃ curve, spec.bootstrap quote none = .ok curve ∧ curve.data = [1, 1, epsilon] := by
  have hlength : [(1 : ℝ), 1, epsilon].length = spec.instruments.length + 1 := rfl
  obtain ⟨c, hc⟩ := CurveSpec.fit_nodes (CurveSpec.frame_ok frame_spec) (by decide) Nat.two_pos hlength
  refine ⟨c, CurveSpec.bootstrap_eq rfl checked frame_spec ?_ hc, ?_⟩
  · exact CurveSpec.settle_second first_pass (pass_eq 1 1 epsilon) accuracy_pos 23
  · obtain ⟨_, _, -, -, rfl⟩ := NodeCurve.fit_ok hc
    rfl

end TwoDeposits

end RateCurves
