import RateCurves.Proofs.Bootstrap.Strip

/-!
# The nodes of a bootstrapped curve

What can be relied on about the nodes of a curve, whatever the instruments, the kind, the scheme and the
solver (`make_bootstrap_sound`): their dates and times are in order, and their values lie within the
bounds they were searched for in. The bounds of a discount factor are those of the last pass, where the
value before it has already taken the value that is published.
-/

namespace RateCurves

open Scalar

variable {κ : Type}

/-- What can be relied on about the nodes of a curve over instruments with the given maturities. -/
structure NodeCurve.Sound (kind : CurveKind) (negativeRates : Bool) (dayCount : DayCount)
    (reference : Date) (maturities : List Date) (curve : NodeCurve ℝ) : Prop where
  dates_eq : ∃ ordered, ordered.Perm maturities ∧ curve.dates = reference :: ordered
  dates_lt : curve.dates.Pairwise (· < ·)
  times_eq : curve.times = curve.dates.map (dayCount.yearFraction reference)
  times_head : curve.times.head? = some 0
  times_lt : curve.times.Pairwise (· < ·)
  data_length : curve.data.length = maturities.length + 1
  first_discount : kind = .discount → curve.data[0]? = some 1
  first_rate : kind ≠ .discount → curve.data[0]? = curve.data[1]?
  discounts : kind = .discount → ∀ (i : Nat) x y, curve.data[i]? = some x → curve.data[i + 1]? = some y →
    epsilon ≤ y ∧ y ≤ if negativeRates then 3 else x
  rates : kind ≠ .discount → ∀ x ∈ curve.data, (if negativeRates then -3 else epsilon) ≤ x ∧ x ≤ 3

namespace CurveSpec

theorem make_ok {α : Type} [Scalar α] {kind : CurveKind} {reference : Reference}
    {instruments : List (Instrument κ α)} {dayCount : DayCount} {scheme : Scheme} {config : BootstrapConfig α}
    {solver : Solver} {spec : CurveSpec κ α}
    (h : CurveSpec.make kind reference instruments dayCount scheme config solver = .ok spec) :
    ∃ ordered, ordered.Perm instruments ∧
      spec = { kind, reference, instruments := ordered, dayCount, scheme, config, solver } := by
  obtain ⟨⟨⟩, -, h⟩ := Outcome.bind_ok.mp h
  refine ⟨_, List.mergeSort_perm instruments fun a b => decide (a.maturity ≤ b.maturity), ?_⟩
  simp only at h
  split at h
  · cases h
  · split at h
    · cases h
    · split at h
      · obtain ⟨⟨⟩, -, h⟩ := Outcome.bind_ok.mp h
        cases h
        rfl
      · cases h
        rfl

theorem make_nonempty {α : Type} [Scalar α] {kind : CurveKind} {reference : Reference}
    {instruments : List (Instrument κ α)} {dayCount : DayCount} {scheme : Scheme} {config : BootstrapConfig α}
    {solver : Solver} {spec : CurveSpec κ α}
    (h : CurveSpec.make kind reference instruments dayCount scheme config solver = .ok spec) :
    spec.instruments ≠ [] := by
  obtain ⟨ordered, hperm, rfl⟩ := make_ok h
  rintro (rfl : ordered = [])
  obtain rfl := List.nil_perm.mp hperm
  obtain ⟨⟨⟩, -, h⟩ := Outcome.bind_ok.mp h
  simp only [List.mergeSort_nil] at h
  cases h

theorem make_iterates {α : Type} [Scalar α] {kind : CurveKind} {reference : Reference}
    {instruments : List (Instrument κ α)} {dayCount : DayCount} {scheme : Scheme} {config : BootstrapConfig α}
    {solver : Solver} {spec : CurveSpec κ α}
    (h : CurveSpec.make kind reference instruments dayCount scheme config solver = .ok spec) :
    spec.config.maxIterations ≠ 0 := by
  obtain ⟨ordered, -, rfl⟩ := make_ok h
  obtain ⟨⟨⟩, hvalid, -⟩ := Outcome.bind_ok.mp h
  obtain ⟨⟨⟩, -, hiterations⟩ := Outcome.bind_ok.mp hvalid
  exact Nat.one_le_iff_ne_zero.mp (of_decide_eq_true (Outcome.require_ok.mp hiterations))

theorem sharedMaturity_of_chain {α : Type} [Scalar α] {instruments : List (Instrument κ α)}
    (h : (instruments.map (·.maturity)).IsChain (· < ·)) : sharedMaturity? instruments = none := by
  fun_induction sharedMaturity? instruments with
  | case1 a b rest hshared =>
    exact absurd hshared (List.isChain_cons_cons.mp h).1.ne
  | case2 a b rest hdistinct ih => exact ih (List.isChain_cons_cons.mp h).2
  | case3 => rfl

/-- A curve can be made over instruments that mature one after another, the first one after the reference date. -/
theorem make_ordered {α : Type} [Scalar α] {config : BootstrapConfig α} (hvalid : config.validate = .ok ())
    {first : Instrument κ α} {rest : List (Instrument κ α)} {date : Date}
    (h : (date :: (first :: rest).map (·.maturity)).IsChain (· < ·)) (kind : CurveKind) (dayCount : DayCount)
    (scheme : Scheme) (solver : Solver) :
    CurveSpec.make kind (.fixed date) (first :: rest) dayCount scheme config solver =
      .ok ⟨kind, .fixed date, first :: rest, dayCount, scheme, config, solver⟩ := by
  obtain ⟨hlater, hchain⟩ := List.isChain_cons_cons.mp h
  have hdistinct : sharedMaturity? (first :: rest) = none := sharedMaturity_of_chain hchain
  have hsorted : (first :: rest).Pairwise fun a b => a.maturity < b.maturity :=
    List.pairwise_map.mp (List.isChain_iff_pairwise.mp hchain)
  have hsort : (first :: rest).mergeSort (fun a b => decide (a.maturity ≤ b.maturity)) = first :: rest :=
    List.mergeSort_of_pairwise (hsorted.imp fun h => decide_eq_true h.le)
  unfold CurveSpec.make
  rw [hvalid, hsort]
  simp only [hdistinct, hlater, decide_true, Outcome.require, if_true]
  rfl

variable {spec : CurveSpec κ ℝ} {read : κ → Option ℝ} {frame : Frame ℝ}

theorem Solved.bounds {iteration : Nat} {before after : List ℝ} {i : Nat} {instrument : Instrument κ ℝ}
    {working : List ℝ} {range : SearchRange ℝ} {root : ℝ}
    (h : spec.Solved read frame iteration before after i instrument working range root) :
    spec.kind.least spec.config.negativeRates ≤ root ∧
      root ≤ spec.kind.greatest spec.config.negativeRates (i + 1) working := by
  obtain ⟨inside, found⟩ := Solver.root_valued spec.solver
    (spec.objective read frame iteration (i + 1) instrument) spec.config.accuracy range.guess range.low
    range.high working
  obtain ⟨v, hv⟩ := found root h.found
  obtain ⟨guess, -, hrange⟩ := Outcome.bind_ok.mp h.searched
  cases hrange
  exact inside.of_valued hv

section published

variable {iteration : Nat} {before : List ℝ} {curve : NodeCurve ℝ}
  (h : spec.Published read frame iteration before curve)
include h

/-- The bounds of a published value, the value before it also being the published one. -/
theorem Published.bounds {i : Nat} {x y : ℝ} (hx : curve.data[i]? = some x)
    (hy : curve.data[i + 1]? = some y) :
    spec.kind.least spec.config.negativeRates ≤ y ∧
      y ≤ match spec.kind with
        | .discount => if spec.config.negativeRates then 3 else x
        | _ => 3 := by
  have hi : i < spec.instruments.length := by
    have := (List.getElem?_eq_some_iff.mp hy).1
    rw [h.length] at this
    omega
  obtain ⟨working, range, root, hs⟩ := pass_ok h.solved hi
  obtain rfl : root = y := Option.some.inj ((h.root_kept hs).symm.trans hy)
  have hbounds := hs.bounds
  refine ⟨hbounds.1, ?_⟩
  unfold CurveKind.greatest CurveKind.ceiling at hbounds
  cases hkind : spec.kind with
  | discount =>
    -- the upper bound is the value at the node before, which this segment does not touch
    have hbefore : working[i]? = some x := by
      rw [← hx, hs.kept i (Nat.le_succ i), CurveKind.place_before (.inl hkind) (Nat.lt_succ_self i)]
    simpa [hkind, List.getD_eq_getElem?_getD, hbefore] using hbounds.2
  | forwardRate | zeroYield => simpa [hkind] using hbounds.2

theorem Published.first_discount (hkind : spec.kind = .discount) : curve.data[0]? = some 1 := by
  rw [solveFrom_before h.solved (.inl hkind) one_pos, passes_first hkind h.reached, lit_one]

theorem Published.first_rate (hkind : spec.kind ≠ .discount) (hone : 0 < spec.instruments.length) :
    curve.data[0]? = curve.data[1]? := by
  obtain ⟨working, range, root, hs⟩ := pass_ok h.solved hone
  have hlength := h.working_length hs
  rw [hs.kept 0 (Nat.zero_le _), h.root_kept hs, CurveKind.place_first hkind (by omega)]

theorem Published.sound {reference : Date} (hframe : spec.frame reference = .ok frame) :
    curve.Sound spec.kind spec.config.negativeRates spec.dayCount reference
      (spec.instruments.map (·.maturity)) := by
  have hframed := frame_ok hframe
  obtain ⟨nodes, f, hnodes, -, -⟩ := NodeCurve.fit_ok h.fitted
  obtain ⟨-, -, hdates, htimes⟩ := h.curve_eq
  have hone : 0 < spec.instruments.length := by
    have htwo := nodes.two_le_size
    rw [Nodes.ofLists_size hnodes, hframed.times_length] at htwo
    omega
  refine ⟨⟨_, List.Perm.refl _, hdates.trans hframed.dates_eq⟩, hdates ▸ hframed.dates_lt,
    by rw [htimes, hdates, hframed.times_eq], htimes ▸ hframed.times_head, htimes ▸ hframed.times_lt,
    by rw [h.length, List.length_map], h.first_discount, fun hkind => h.first_rate hkind hone, ?_, ?_⟩
  · intro hkind i x y hx hy
    have hbounds := h.bounds hx hy
    rw [hkind] at hbounds
    exact hbounds
  · intro hkind x hx
    -- a rate at the reference date is the one at the first maturity
    obtain ⟨i, hi⟩ : ∃ i : Nat, curve.data[i + 1]? = some x := by
      obtain ⟨i, hi⟩ := List.mem_iff_getElem?.mp hx
      cases i with
      | zero => exact ⟨0, h.first_rate hkind hone ▸ hi⟩
      | succ i => exact ⟨i, hi⟩
    have hlength := (List.getElem?_eq_some_iff.mp hi).1
    have hbounds := h.bounds (List.getElem?_eq_getElem (Nat.lt_of_succ_lt hlength)) hi
    unfold CurveKind.least CurveKind.ceiling at hbounds
    cases hspec : spec.kind with
    | discount => exact absurd hspec hkind
    | forwardRate | zeroYield => simpa [hspec] using hbounds

end published

/-- Whatever a curve is made from, its nodes are sound once it has been bootstrapped. -/
theorem make_bootstrap_sound {kind : CurveKind} {reference : Reference}
    {instruments : List (Instrument κ ℝ)} {dayCount : DayCount} {scheme : Scheme}
    {config : BootstrapConfig ℝ} {solver : Solver} {spec : CurveSpec κ ℝ} {today : Option Date}
    {curve : NodeCurve ℝ}
    (hmake : CurveSpec.make kind reference instruments dayCount scheme config solver = .ok spec)
    (h : spec.bootstrap read today = .ok curve) :
    ∃ start, reference.resolve today = (.ok start : Outcome ℝ Date) ∧
      curve.Sound kind config.negativeRates dayCount start (instruments.map (·.maturity)) := by
  obtain ⟨ordered, hperm, rfl⟩ := make_ok hmake
  obtain ⟨start, frame, iteration, before, hstart, hframe, hpublished⟩ := bootstrap_ok h
  have hsound := hpublished.sound hframe
  obtain ⟨dates, hdates, hcurve⟩ := hsound.dates_eq
  have hmaturities := hperm.map (·.maturity)
  exact ⟨start, hstart, { hsound with
    dates_eq := ⟨dates, hdates.trans hmaturities, hcurve⟩
    data_length := by rw [hsound.data_length, hmaturities.length_eq] }⟩

end CurveSpec

namespace TwoDeposits

open OneYear (start stop)
open OneDeposit (deposit)

theorem make_spec : CurveSpec.make .discount (.fixed start) [deposit, longer] .actual365Fixed .linear
    { negativeRates := false } { algorithm := .bisection } = .ok spec := by
  have hchain : [start, stop, final].IsChain (· < ·) := by decide
  exact CurveSpec.make_ordered validate hchain .discount .actual365Fixed .linear { algorithm := .bisection }

/-- The nodes over two deposits are sound, without negative rates. -/
theorem nodes_sound : ∃ spec curve,
    CurveSpec.make .discount (.fixed start) [deposit, longer] .actual365Fixed .linear { negativeRates := false }
        { algorithm := .bisection } = .ok spec ∧
      spec.bootstrap quote none = .ok curve ∧
      ∃ date, (Reference.fixed start).resolve none = (.ok date : Outcome ℝ Date) ∧
        curve.Sound .discount false .actual365Fixed date ([deposit, longer].map (·.maturity)) := by
  obtain ⟨curve, hcurve, -⟩ := bootstrap_spec
  exact ⟨spec, curve, make_spec, hcurve, CurveSpec.make_bootstrap_sound make_spec hcurve⟩

end TwoDeposits

end RateCurves
