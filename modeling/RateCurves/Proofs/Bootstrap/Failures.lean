import RateCurves.Proofs.Bootstrap.Nodes
import RateCurves.Proofs.RootSearch.Known
import RateCurves.Market.Curve

/-!
# How a bootstrap fails

Once the reference date, the instruments and the node times are in order, a bootstrap can only fail to
converge (`Market.calculate_failures`), in whatever arithmetic. Whatever goes wrong while a node is solved
for is reported as the failure of its segment, so it remains to see that the nodes of a completed pass can
be published (`CurveSpec.pass_fits`). The root of the last segment has been evaluated
(`Solver.root_known`), on a curve of all the nodes, and these are the nodes that the pass ends with.
-/

namespace RateCurves

variable {κ α : Type} [Scalar α]

/-- A scheme that asks no more of the nodes fits them as well. -/
theorem NodeCurve.fit_scheme {kind : CurveKind} {dayCount : DayCount} {scheme other : Scheme}
    {dates : List Date} {times data : List α} {c : NodeCurve α}
    (h : fit kind dayCount scheme dates times data = .ok c)
    (hother : other = .logLinear → scheme = .logLinear) :
    ∃ d, fit kind dayCount other dates times data = .ok d := by
  obtain ⟨nodes, f, hnodes, -, -⟩ := fit_ok h
  obtain ⟨g, hg⟩ : ∃ g, other.interpolate nodes = .ok g := by
    refine Scheme.interpolate_exists fun hlog => ?_
    obtain rfl := hother hlog
    exact (Nodes.ofLists_ok hnodes).2.symm ▸ fit_accepts h
  exact ⟨_, Outcome.bind_ok.mpr ⟨g, Outcome.bind_ok.mpr ⟨nodes, hnodes, hg⟩, rfl⟩⟩

namespace CurveSpec

variable {spec : CurveSpec κ α} {read : κ → Option α} {frame : Frame α} {iteration : Nat}
  {before after : List α}

/-! ## Segments -/

theorem Solved.tried {i : Nat} {instrument : Instrument κ α} {working : List α} {range : SearchRange α}
    {root : α} (h : spec.Solved read frame iteration before after i instrument working range root) :
    ∃ curve, spec.partialCurve frame (spec.stage iteration (i + 1)).1 (spec.stage iteration (i + 1)).2
      (spec.kind.place working root (i + 1)) = .ok curve := by
  obtain ⟨v, hv⟩ := Solver.root_known spec.solver h.found
  obtain ⟨curve, hcurve, -⟩ := Outcome.bind_ok.mp (objective_evaluated hv)
  exact ⟨curve, hcurve⟩

/-- If segments are not solved, it is one of them that is reported. -/
theorem solveFrom_unsolved {iteration i : Nat} {instruments : List (Instrument κ α)} {data : List α}
    {e : Failure α} (h : spec.solveFrom read frame iteration i instruments data = .error e) :
    ∃ j instrument cause, instruments[j]? = some instrument ∧
      e = .segmentUnsolved instrument.maturity (i + j) (iteration + 1) cause := by
  induction instruments generalizing i data with
  | nil => cases h
  | cons instrument rest ih =>
    rw [solveFrom] at h
    rcases hsegment : spec.solveSegment read frame iteration i instrument data with ⟨cause | root, data'⟩
    · rw [hsegment] at h
      cases h
      exact ⟨0, instrument, cause, rfl, rfl⟩
    · rw [hsegment] at h
      obtain ⟨j, later, cause, hlater, he⟩ := ih h
      exact ⟨j + 1, later, cause, hlater, by rw [he, Nat.add_right_comm, Nat.add_assoc]⟩

theorem solveFrom_error {i : Nat} {instruments : List (Instrument κ α)} {data : List α} {e : Failure α}
    (h : spec.solveFrom read frame iteration i instruments data = .error e) : e.kind = .convergence := by
  obtain ⟨_, _, _, -, rfl⟩ := solveFrom_unsolved h
  rfl

/-! ## Passes -/

/-- The nodes that a pass over all of them ends with can be published. -/
theorem pass_fits (hsome : spec.instruments ≠ []) (hdates : frame.dates.length = spec.instruments.length + 1)
    (htimes : frame.times.length = spec.instruments.length + 1)
    (hlength : before.length = spec.instruments.length + 1)
    (h : spec.pass read frame iteration before = .ok after) :
    ∃ curve, NodeCurve.fit spec.kind spec.dayCount spec.scheme frame.dates frame.times after = .ok curve := by
  obtain ⟨i, hi⟩ : ∃ i, spec.instruments.length = i + 1 :=
    Nat.exists_eq_add_one.mpr (List.length_pos_of_ne_nil hsome)
  have hlast : i < spec.instruments.length := by omega
  obtain ⟨working, range, root, hs⟩ := pass_ok h hlast
  obtain ⟨hspan, hscheme⟩ := spec.stage_last iteration hi.symm
  obtain ⟨curve, hcurve⟩ := hs.tried
  have hafter : after.length = spec.instruments.length + 1 := (solveFrom_length h).trans hlength
  have hplaced : (spec.kind.place working root (i + 1)).length = after.length := by
    rw [CurveKind.place_length, hs.length_eq, solveFrom_length h]
  have heq : spec.kind.place working root (i + 1) = after := by
    apply List.ext_getElem?
    intro j
    rcases Nat.lt_or_ge (i + 1) j with hj | hj
    · rw [List.getElem?_eq_none (by omega), List.getElem?_eq_none (by omega)]
    · exact (hs.kept j hj).symm
  rw [hspan, partialCurve, heq, List.take_of_length_le hdates.le,
    List.take_of_length_le htimes.le, List.take_of_length_le hafter.le] at hcurve
  refine NodeCurve.fit_scheme hcurve fun hlog => ?_
  rcases hscheme with hsame | ⟨-, hcubic, -⟩
  · rw [hsame, hlog]
  · cases hlog.symm.trans hcubic

theorem settle_ends (read : κ → Option α) (hsome : spec.instruments ≠ [])
    (hdates : frame.dates.length = spec.instruments.length + 1)
    (htimes : frame.times.length = spec.instruments.length + 1) (more : Nat) {k : Nat} {data : List α}
    (hlength : data.length = spec.instruments.length + 1) :
    (∃ next curve, spec.settle read frame more k data = .ok next ∧
      NodeCurve.fit spec.kind spec.dayCount spec.scheme frame.dates frame.times next = .ok curve) ∨
    ∃ e, spec.settle read frame more k data = .error e ∧ e.kind = .convergence := by
  induction more generalizing k data with
  | zero => exact .inr ⟨_, rfl, rfl⟩
  | succ more ih =>
    cases hpass : spec.pass read frame k data with
    | error e =>
      rw [settle, hpass]
      exact .inr ⟨e, rfl, solveFrom_error hpass⟩
    | ok next =>
      rw [settle_succ hpass]
      split
      · obtain ⟨curve, hcurve⟩ := pass_fits hsome hdates htimes hlength hpass
        exact .inl ⟨next, curve, rfl, hcurve⟩
      · exact ih ((solveFrom_length hpass).trans hlength)

/-- A bootstrap whose preparations succeed gives a curve or does not converge. -/
theorem bootstrap_ends {today : Option Date} {reference : Date} (hsome : spec.instruments ≠ [])
    (hreference : spec.reference.resolve today = (.ok reference : Outcome α Date))
    (hchecked : spec.checkInstruments read reference = .ok ()) (hframe : spec.frame reference = .ok frame) :
    (∃ curve, spec.bootstrap read today = .ok curve) ∨
      ∃ e, spec.bootstrap read today = .error e ∧ e.kind = .convergence := by
  obtain ⟨hdates, htimes, -⟩ := frame_lists hframe
  have hcount : frame.dates.length = spec.instruments.length + 1 := by
    rw [hdates, List.length_cons, List.length_map]
  have hcount' : frame.times.length = spec.instruments.length + 1 := by
    rw [htimes, List.length_map, hcount]
  have hbootstrap : spec.bootstrap read today =
      (spec.settle read frame spec.config.maxIterations 0
        (List.replicate (spec.instruments.length + 1) spec.kind.initialValue) >>= fun data =>
          NodeCurve.fit spec.kind spec.dayCount spec.scheme frame.dates frame.times data) := by
    rw [bootstrap, hreference]
    show (spec.checkInstruments read reference >>= fun _ => spec.frame reference >>= _) = _
    rw [hchecked, hframe]
    rfl
  rw [hbootstrap]
  rcases settle_ends read hsome hcount hcount' spec.config.maxIterations (k := 0) List.length_replicate with
    ⟨data, curve, hsettle, hfit⟩ | ⟨e, hsettle, hkind⟩
  · exact .inl ⟨curve, Outcome.bind_ok.mpr ⟨data, hsettle, hfit⟩⟩
  · rw [hsettle]
    exact .inr ⟨e, rfl, hkind⟩

theorem bootstrap_pass_error {today : Option Date} {reference : Date} {e : Failure α}
    (hreference : spec.reference.resolve today = (.ok reference : Outcome α Date))
    (hchecked : spec.checkInstruments read reference = .ok ()) (hframe : spec.frame reference = .ok frame)
    (hsome : spec.config.maxIterations ≠ 0)
    (hpass : spec.pass read frame 0 (List.replicate (spec.instruments.length + 1) spec.kind.initialValue) =
      .error e) : spec.bootstrap read today = .error e := by
  obtain ⟨more, hmore⟩ := Nat.exists_eq_succ_of_ne_zero hsome
  unfold bootstrap
  rw [hreference]
  simp only [bind, Except.bind]
  rw [hchecked, hframe, hmore]
  simp only [settle, hpass]
  rfl

end CurveSpec

/-! ## Curves in a market -/

/-- **Failures of the solving phase are failures to converge.** If the reference date of a curve can be
resolved, every instrument matures after it and has a quote, and the node times increase, then the curve is
brought up to date or fails to converge, and the nodes of a pass that has solved every segment can be
published. -/
theorem Market.calculate_failures (m : Market α) {id : CurveId} {c : LazyCurve α}
    (hc : m.curves[id]? = some c) {kind : CurveKind} {reference : Reference}
    {instruments : List (Instrument QuoteId α)} {dayCount : DayCount} {scheme : Scheme}
    {config : BootstrapConfig α} {solver : Solver}
    (made : CurveSpec.make kind reference instruments dayCount scheme config solver = .ok c.spec)
    {start : Date} (resolved : reference.resolve m.evaluation.current = (.ok start : Outcome α Date))
    (later : ∀ instrument ∈ instruments, start < instrument.maturity)
    (quoted : ∀ instrument ∈ instruments, ∃ quote, instrument.referenceQuote m.read = .ok quote)
    (increasing : (start :: c.spec.instruments.map (·.maturity)).IsChain fun a b =>
      (dayCount.yearFraction start a : α) < dayCount.yearFraction start b) :
    ((m.calculate id).1 = .ok () ∨ ∃ e, (m.calculate id).1 = .error e ∧ e.kind = .convergence) ∧
    ∀ frame iteration before after, c.spec.frame start = .ok frame →
      c.spec.passes m.read frame iteration = .ok before →
      c.spec.pass m.read frame iteration before = .ok after →
      ∃ curve, NodeCurve.fit kind dayCount scheme frame.dates frame.times after = .ok curve := by
  obtain ⟨ordered, hperm, hspec⟩ := CurveSpec.make_ok made
  have hsome : c.spec.instruments ≠ [] := CurveSpec.make_nonempty made
  rw [hspec] at hsome increasing
  have hchecked : c.spec.checkInstruments m.read start = .ok () := by
    rw [hspec, CurveSpec.checkInstruments_ok]
    exact fun instrument hmem =>
      ⟨later instrument (hperm.mem_iff.mp hmem), quoted instrument (hperm.mem_iff.mp hmem)⟩
  constructor
  · have hframe : c.spec.frame start = _ := CurveSpec.frame_eq rfl
      (CurveSpec.stalled_none.mpr (by rw [hspec]; exact increasing))
    have hreference : c.spec.reference.resolve m.evaluation.current = (.ok start : Outcome α Date) := by
      rw [hspec, resolved]
    have hcalculate : (m.calculate id).1 = (c.cell.calculate
        (fun _ : Unit => (c.spec.bootstrap m.read m.evaluation.current, ())) ()).1.1 := by
      rw [calculate, hc]
    rw [hcalculate]
    refine (c.cell.calculate_ends _ ()).imp_right ?_
    rintro ⟨e, hfailed, herror⟩
    refine ⟨e, herror, ?_⟩
    have hends := CurveSpec.bootstrap_ends (hspec ▸ hsome) hreference hchecked hframe
    rcases hends with ⟨curve, hcurve⟩ | ⟨e', he', hkind⟩
    · exact nomatch hcurve.symm.trans hfailed
    · exact Except.error.inj (he'.symm.trans hfailed) ▸ hkind
  · intro frame iteration before after hframe hbefore hpass
    obtain ⟨hdates, htimes, -⟩ := CurveSpec.frame_lists hframe
    have hcount : frame.dates.length = c.spec.instruments.length + 1 := by
      rw [hdates, List.length_cons, List.length_map]
    have hcount' : frame.times.length = c.spec.instruments.length + 1 := by
      rw [htimes, List.length_map, hcount]
    have fits := CurveSpec.pass_fits (hspec ▸ hsome) hcount hcount' (CurveSpec.passes_length hbefore) hpass
    rw [hspec] at fits
    exact fits

namespace TwoDeposits

open OneYear (start stop)
open OneDeposit (deposit)

/-- A market with the quotes of both deposits and a curve over them. -/
noncomputable def market : Market ℝ where
  quotes := #[{ value := some 0 }, { value := some ((1 / Scalar.epsilon - 1) / (1 + 1)) }]
  curves := #[{ spec := spec }]

theorem market_read : market.read = quote := by
  funext id
  match id with
  | 0 | 1 | _ + 2 => rfl

/-- The curve over both deposits is calculated or does not converge, and the nodes of its first pass can be
published. -/
theorem calculate_failures_deposits :
    ((market.calculate 0).1 = .ok () ∨ ∃ e, (market.calculate 0).1 = .error e ∧ e.kind = .convergence) ∧
    spec.frame start = .ok frame ∧ ∃ before after, spec.passes market.read frame 0 = .ok before ∧
      spec.pass market.read frame 0 before = .ok after ∧
      ∃ curve, NodeCurve.fit .discount .actual365Fixed .linear frame.dates frame.times after = .ok curve := by
  have instruments {P : Instrument QuoteId ℝ → Prop} (hdeposit : P deposit) (hlonger : P longer) :
      ∀ instrument ∈ [deposit, longer], P instrument :=
    List.forall_mem_cons.mpr ⟨hdeposit, List.forall_mem_singleton.mpr hlonger⟩
  have later : ∀ instrument ∈ [deposit, longer], start < instrument.maturity :=
    instruments (by show start < stop; decide) (by show start < final; decide)
  have quoted : ∀ instrument ∈ [deposit, longer], ∃ quote, instrument.referenceQuote market.read = .ok quote :=
    instruments ⟨_, rfl⟩ ⟨_, rfl⟩
  obtain ⟨-, -, increasing⟩ := CurveSpec.frame_lists frame_spec
  have hcurve : market.curves[0]? = some { spec := spec } := rfl
  obtain ⟨hends, hfits⟩ := market.calculate_failures hcurve make_spec rfl later quoted increasing
  have hreached : spec.passes market.read frame 0 = .ok (List.replicate 3 (spec.kind.initialValue)) := rfl
  have hpass : spec.pass market.read frame 0 (List.replicate 3 spec.kind.initialValue) =
      .ok [1, 1, Scalar.epsilon] := market_read ▸ first_pass
  exact ⟨hends, frame_spec, _, _, hreached, hpass, hfits frame 0 _ _ frame_spec hreached hpass⟩

end TwoDeposits

end RateCurves
