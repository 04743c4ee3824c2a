import RateCurves.Proofs.Bootstrap.Evaluations
import RateCurves.Proofs.Bootstrap.Failures
import RateCurves.Proofs.Market.Frozen

/-!
# Missing quotes

What becomes of a calculation if an instrument lacks one of the quotes that it reads
(`Market.missing_quote_failures`). Observed quotes are looked for before anything is solved, so that a missing
one is an error of configuration and no objective is evaluated (`CurveSpec.bootstrap_refused`). The
convexity adjustment of a futures contract is not looked for until the contract is priced: a segment of the
first pass is then left unsolved (`CurveSpec.pass_unadjusted`), and the calculation does not converge.
-/

namespace RateCurves

variable {κ α : Type} [Scalar α]

/-! ## What an instrument reads -/

namespace Instrument

/-- The observed quote has no value, or there is none. -/
def Unobserved (read : κ → Option α) (i : Instrument κ α) : Prop := i.quote.target?.bind read = none

/-- There is a convexity adjustment, and it has no value. -/
def Unadjusted (read : κ → Option α) (i : Instrument κ α) : Prop := ∃ source ∈ i.adjustments, read source = none

variable {read : κ → Option α} {i : Instrument κ α}

theorem unobserved_iff : i.Unobserved read ↔ ¬∃ quote, i.referenceQuote read = .ok quote := by
  unfold Unobserved referenceQuote
  cases i.quote.target?.bind read with
  | none => exact ⟨fun _ => nofun, fun _ => rfl⟩
  | some quote => exact ⟨nofun, fun h => absurd ⟨quote, rfl⟩ h⟩

theorem not_unadjusted {curve : CurveView α} {v : α} (h : i.quoteError read curve = .ok v) :
    ¬i.Unadjusted read := by
  rintro ⟨source, hsource, hmissing⟩
  cases i with
  | deposit rate loan | fra rate loan | swap rate schedule => exact absurd hsource List.not_mem_nil
  | futures price convexity loan =>
    have htarget : convexity.target? = some source := by simpa [adjustments] using hsource
    obtain ⟨observed, -, h⟩ := Outcome.bind_ok.mp h
    obtain ⟨implied, himplied, -⟩ := Outcome.bind_ok.mp h
    obtain ⟨forward, -, himplied⟩ := Outcome.bind_ok.mp himplied
    obtain ⟨adjustment, hadjustment, -⟩ := Outcome.bind_ok.mp himplied
    rw [convexityAdjustment, htarget] at hadjustment
    simp only [hmissing] at hadjustment
    cases hadjustment

end Instrument

namespace CurveSpec

variable {spec : CurveSpec κ α} {read : κ → Option α} {frame : Frame α}

/-! ## Preparations -/

/-- The instruments and their dates do not pass the checks that are made before anything is solved. -/
def Refused (spec : CurveSpec κ α) (read : κ → Option α) (reference : Date) : Prop :=
  (∃ i ∈ spec.instruments, ¬reference < i.maturity ∨ i.Unobserved read) ∨
    ¬(reference :: spec.instruments.map (·.maturity)).IsChain fun a b =>
      (spec.dayCount.yearFraction reference a : α) < spec.dayCount.yearFraction reference b

theorem checkInstruments_error {reference : Date} {e : Failure α}
    (h : spec.checkInstruments read reference = .error e) : e.kind = .configuration := by
  have check (instrument : Instrument κ α) {e : Failure α} (h : (do
      Outcome.require (reference < instrument.maturity) (.maturityTooEarly instrument.maturity reference)
      let _ ← instrument.referenceQuote read
      : Outcome α Unit) = .error e) : e.kind = .configuration := by
    unfold Outcome.require Instrument.referenceQuote at h
    split at h
    · cases hquote : instrument.quote.target?.bind read with
      | none =>
        rw [hquote] at h
        cases h
        rfl
      | some quote =>
        rw [hquote] at h
        cases h
    · cases h
      rfl
  unfold checkInstruments at h
  revert h
  induction spec.instruments with
  | nil => exact nofun
  | cons instrument rest ih =>
    intro h
    rw [List.forM] at h
    cases hfirst : (do
      Outcome.require (reference < instrument.maturity) (.maturityTooEarly instrument.maturity reference)
      let _ ← instrument.referenceQuote read
      : Outcome α Unit) with
    | error e' =>
      rw [hfirst] at h
      cases h
      exact check instrument hfirst
    | ok =>
      rw [hfirst] at h
      exact ih h

theorem frame_error {reference : Date} {e : Failure α} (h : spec.frame reference = .error e) :
    e.kind = .configuration := by
  unfold CurveSpec.frame at h
  simp only at h
  split at h
  · cases h
    rfl
  · cases h

theorem accepted_of_not_refused {reference : Date} (h : ¬spec.Refused read reference) :
    spec.checkInstruments read reference = .ok () ∧ ∃ frame, spec.frame reference = .ok frame := by
  obtain ⟨hchecks, htimes⟩ := not_or.mp h
  constructor
  · rw [checkInstruments_ok]
    intro i hi
    obtain ⟨hlater, hquote⟩ := not_or.mp fun hi' => hchecks ⟨i, hi, hi'⟩
    exact ⟨not_not.mp hlater, by rwa [Instrument.unobserved_iff, not_not] at hquote⟩
  · exact ⟨_, frame_eq rfl (stalled_none.mpr (not_not.mp htimes))⟩

theorem not_refused {reference : Date} (hchecked : spec.checkInstruments read reference = .ok ())
    (hframe : spec.frame reference = .ok frame) : ¬spec.Refused read reference := by
  rintro (⟨i, hi, hlater | hquote⟩ | htimes)
  · exact hlater (checkInstruments_ok.mp hchecked i hi).1
  · exact Instrument.unobserved_iff.mp hquote (checkInstruments_ok.mp hchecked i hi).2
  · obtain ⟨hdates, -, hincreasing⟩ := frame_lists hframe
    exact htimes (hdates ▸ hincreasing)

theorem observe_refused {reference : Date} {today : Option Date} (h : spec.Refused read reference)
    (hreference : spec.reference.resolve today = (.ok reference : Outcome α Date)) (log : History α) :
    ∃ e, spec.observe read today log = (.error e, log) ∧ e.kind = .configuration := by
  simp only [observe, Trial.bind_apply, Trial.ofOutcome_apply, hreference]
  cases hchecked : spec.checkInstruments read reference with
  | error e => exact ⟨e, rfl, checkInstruments_error hchecked⟩
  | ok =>
    cases hframe : spec.frame reference with
    | error e => exact ⟨e, rfl, frame_error hframe⟩
    | ok frame => exact absurd h (not_refused hchecked hframe)

/-- What is refused is an error of configuration, and nothing is evaluated. -/
theorem bootstrap_refused {reference : Date} {today : Option Date} (h : spec.Refused read reference)
    (hreference : spec.reference.resolve today = (.ok reference : Outcome α Date)) :
    (∃ e, spec.bootstrap read today = .error e ∧ e.kind = .configuration) ∧
      spec.evaluations read today = [] := by
  obtain ⟨e, he, hkind⟩ := observe_refused h hreference []
  refine ⟨⟨e, ?_, hkind⟩, congrArg Prod.snd he⟩
  rw [← spec.observe_answer read today [], he]

/-! ## Segments -/

/-- Segments that are solved have had their adjustments: the roots have been evaluated. -/
theorem solveFrom_adjusted {iteration i : Nat} {instruments : List (Instrument κ α)} {data after : List α}
    (h : spec.solveFrom read frame iteration i instruments data = .ok after) :
    ∀ instrument ∈ instruments, ¬instrument.Unadjusted read := by
  induction instruments generalizing i data with
  | nil => exact fun _ hmem => absurd hmem List.not_mem_nil
  | cons instrument rest ih =>
    obtain ⟨range, root, -, hfound, hrest⟩ := solveFrom_cons h
    obtain ⟨v, hv⟩ := Solver.root_known spec.solver hfound
    obtain ⟨curve, -, hpriced⟩ := Outcome.bind_ok.mp (objective_evaluated hv)
    exact List.forall_mem_cons.mpr ⟨Instrument.not_unadjusted hpriced, ih hrest⟩

/-- An instrument without its adjustment leaves its own segment or an earlier one unsolved. -/
theorem pass_unadjusted (frame : Frame α) {j : Nat} {instrument : Instrument κ α}
    (hj : spec.instruments[j]? = some instrument) (h : instrument.Unadjusted read) (iteration : Nat)
    (data : List α) :
    ∃ i ≤ j, ∃ earlier cause, spec.instruments[i]? = some earlier ∧ spec.pass read frame iteration data =
      .error (.segmentUnsolved earlier.maturity (i + 1) (iteration + 1) cause) := by
  have hsplit : spec.pass read frame iteration data =
      (spec.solveFrom read frame iteration 1 (spec.instruments.take (j + 1)) data >>=
        spec.solveFrom read frame iteration (1 + (spec.instruments.take (j + 1)).length)
          (spec.instruments.drop (j + 1))) := by
    rw [pass, ← solveFrom_append, List.take_append_drop]
  have hmem : instrument ∈ spec.instruments.take (j + 1) :=
    List.mem_of_getElem? ((List.getElem?_take_of_lt (Nat.lt_succ_self j)).trans hj)
  cases hfirst : spec.solveFrom read frame iteration 1 (spec.instruments.take (j + 1)) data with
  | ok after => exact absurd h (solveFrom_adjusted hfirst instrument hmem)
  | error e =>
    obtain ⟨i, earlier, cause, hearlier, rfl⟩ := solveFrom_unsolved hfirst
    have hi : i < j + 1 := by
      have := (List.getElem?_eq_some_iff.mp hearlier).1
      rw [List.length_take] at this
      omega
    refine ⟨i, Nat.le_of_lt_succ hi, earlier, cause, ?_, ?_⟩
    · rwa [List.getElem?_take_of_lt hi] at hearlier
    · rw [hsplit, hfirst, Nat.add_comm i 1]
      rfl

theorem bootstrap_unadjusted {reference : Date} {today : Option Date} {j : Nat} {instrument : Instrument κ α}
    (hreference : spec.reference.resolve today = (.ok reference : Outcome α Date))
    (haccepted : ¬spec.Refused read reference) (hsome : spec.config.maxIterations ≠ 0)
    (hj : spec.instruments[j]? = some instrument) (h : instrument.Unadjusted read) :
    ∃ i ≤ j, ∃ earlier cause, spec.instruments[i]? = some earlier ∧
      spec.bootstrap read today = .error (.segmentUnsolved earlier.maturity (i + 1) 1 cause) := by
  obtain ⟨hchecked, frame, hframe⟩ := accepted_of_not_refused haccepted
  obtain ⟨i, hi, earlier, cause, hearlier, hpass⟩ := pass_unadjusted frame hj h 0
    (List.replicate (spec.instruments.length + 1) spec.kind.initialValue)
  exact ⟨i, hi, earlier, cause, hearlier, bootstrap_pass_error hreference hchecked hframe hsome hpass⟩

end CurveSpec

/-! ## Curves in a market -/

/-- **What a missing quote does to a calculation.** If one of the quotes that an instrument reads has no value,
the calculation fails. It is a configuration error and nothing is evaluated exactly if the checks made before
solving refuse the instruments, as they do if an observed quote is missing. Otherwise only a convexity
adjustment is missing, and the segment of its futures contract or an earlier one is not solved in the
first pass. -/
theorem Market.missing_quote_failures (m : Market α) {id : CurveId} {c : LazyCurve α}
    (hc : m.curves[id]? = some c) (due : c.cell.isCalculated = false) {kind : CurveKind} {reference : Reference}
    {instruments : List (Instrument QuoteId α)} {dayCount : DayCount} {scheme : Scheme}
    {config : BootstrapConfig α} {solver : Solver}
    (made : CurveSpec.make kind reference instruments dayCount scheme config solver = .ok c.spec)
    {start : Date} (resolved : reference.resolve m.evaluation.current = (.ok start : Outcome α Date))
    {j : Nat} {instrument : Instrument QuoteId α} (listed : c.spec.instruments[j]? = some instrument)
    (missing : instrument.Unobserved m.read ∨ instrument.Unadjusted m.read) :
    (instrument.Unobserved m.read → c.spec.Refused m.read start) ∧
    ∃ e, (m.calculate id).1 = .error e ∧
      ((e.kind = .configuration ∧ c.spec.evaluations m.read m.evaluation.current = []) ↔
        c.spec.Refused m.read start) ∧
      (¬c.spec.Refused m.read start → ∃ i ≤ j, ∃ earlier cause, c.spec.instruments[i]? = some earlier ∧
        e = .segmentUnsolved earlier.maturity (i + 1) 1 cause) := by
  have hreference : c.spec.reference.resolve m.evaluation.current = (.ok start : Outcome α Date) := by
    obtain ⟨ordered, -, hspec⟩ := CurveSpec.make_ok made
    rw [hspec, resolved]
  have hunobserved (h : instrument.Unobserved m.read) : c.spec.Refused m.read start :=
    .inl ⟨instrument, List.mem_of_getElem? listed, .inr h⟩
  refine ⟨hunobserved, ?_⟩
  rw [calculate_uncalculated hc due]
  by_cases hrefused : c.spec.Refused m.read start
  · obtain ⟨⟨e, he, hkind⟩, hnothing⟩ := CurveSpec.bootstrap_refused hrefused hreference
    rw [he]
    exact ⟨e, rfl, ⟨fun _ => hrefused, fun _ => ⟨hkind, hnothing⟩⟩, fun h => absurd hrefused h⟩
  · obtain ⟨i, hi, earlier, cause, hearlier, he⟩ := CurveSpec.bootstrap_unadjusted hreference hrefused
      (CurveSpec.make_iterates made) listed (missing.resolve_left fun h => hrefused (hunobserved h))
    rw [he]
    refine ⟨_, rfl, ⟨fun h => ?_, fun h => absurd h hrefused⟩, fun _ => ⟨i, hi, earlier, cause, hearlier, rfl⟩⟩
    cases h.1

/-! ## A deposit and a futures contract -/

namespace TwoDeposits

open OneDeposit (deposit)
open Market OneYear

/-- A futures contract over the term of the longer deposit, with a convexity adjustment. -/
noncomputable def contract : Instrument QuoteId ℝ := .futures (.of 1) (.of 2) loan

/-- A curve over the first deposit and this contract. -/
noncomputable def mixed : CurveSpec QuoteId ℝ := { spec with instruments := [deposit, contract] }

/-- A market with this curve, in which the price of the contract is known. -/
noncomputable def mixedMarket (rate adjustment : Option ℝ) : Market ℝ :=
  run {} [.newQuote rate, .newQuote (some 97), .newQuote adjustment, .newCurve mixed]

theorem make_mixed : CurveSpec.make .discount (.fixed start) [deposit, contract] .actual365Fixed .linear
    { negativeRates := false } { algorithm := .bisection } = .ok mixed := by
  have hchain : [start, stop, final].IsChain (· < ·) := by decide
  exact CurveSpec.make_ordered validate hchain .discount .actual365Fixed .linear { algorithm := .bisection }

theorem mixed_accepted : ¬mixed.Refused (mixedMarket (some 0) none).read start := by
  have hframe : mixed.frame start = .ok frame := frame_spec
  have hchecked : mixed.checkInstruments (mixedMarket (some 0) none).read start = .ok () :=
    CurveSpec.checkInstruments_pair rfl (by decide : start < stop) (by decide : start < final) (p := 0) rfl
      (q := 97) rfl
  exact CurveSpec.not_refused hchecked hframe

/-- Without the adjustment of the contract, which comes second, one of the two segments is left unsolved. Without
the rate of the deposit nothing is evaluated. -/
theorem missing_quotes_fail :
    (∃ i ≤ 1, ∃ earlier cause, mixed.instruments[i]? = some earlier ∧
      ((mixedMarket (some 0) none).calculate 0).1 = .error (.segmentUnsolved earlier.maturity (i + 1) 1 cause)) ∧
    ∃ e, ((mixedMarket none (some 0)).calculate 0).1 = .error e ∧ e.kind = .configuration ∧
      mixed.evaluations (mixedMarket none (some 0)).read none = [] := by
  have hcurve (rate adjustment : Option ℝ) : (mixedMarket rate adjustment).curves[0]? = some { spec := mixed } :=
    rfl
  constructor
  · obtain ⟨-, e, he, -, hunsolved⟩ := missing_quote_failures _ (hcurve (some 0) none) rfl make_mixed rfl (j := 1)
      rfl (.inr ⟨2, List.mem_singleton.mpr rfl, rfl⟩)
    obtain ⟨i, hi, earlier, cause, hearlier, rfl⟩ := hunsolved mixed_accepted
    exact ⟨i, hi, earlier, cause, hearlier, he⟩
  · have hunobserved : deposit.Unobserved (mixedMarket none (some 0)).read := rfl
    obtain ⟨hrefused, e, he, hnothing, -⟩ := missing_quote_failures _ (hcurve none (some 0)) rfl make_mixed rfl
      (j := 0) rfl (.inl hunobserved)
    obtain ⟨hkind, hevaluations⟩ := hnothing.mpr (hrefused hunobserved)
    exact ⟨e, he, hkind, hevaluations⟩

end TwoDeposits

/-! ## A futures contract without its adjustment -/

namespace OneDeposit

open Market OneYear Scalar

/-- A curve over the futures contract alone. -/
noncomputable def contractSpec : CurveSpec QuoteId ℝ := { spec with instruments := [contract] }

/-- A market with this curve, in which the price of the contract is known but its adjustment is not. -/
noncomputable def unadjusted : Market ℝ := run {} [.newQuote (some 97), .newQuote none, .newCurve contractSpec]

theorem contract_checked : contractSpec.checkInstruments unadjusted.read start = .ok () :=
  CurveSpec.checkInstruments_single rfl (by decide : start < stop) (q := 97) rfl

theorem contract_frame : contractSpec.frame start = .ok frame := frame_spec

theorem contract_unadjusted : contract.Unadjusted unadjusted.read := ⟨1, List.mem_singleton.mpr rfl, rfl⟩

theorem contract_evaluated (data : List ℝ) :
    (contractSpec.observeSegment unadjusted.read frame 0 1 contract (data, [])).2.2 ≠ [] := by
  obtain ⟨guess, hrange⟩ : ∃ guess, contractSpec.searchRange frame 0 1 data =
      .ok { guess, low := epsilon, high := CurveKind.ceiling } := ⟨_, rfl⟩
  have haccuracy : (0.0 : ℝ) < contractSpec.config.accuracy := lit_zero ▸ accuracy_pos
  have hbudget : 0 < contractSpec.solver.budget := Nat.succ_pos 99
  have hsegment : (contractSpec.observeSegment unadjusted.read frame 0 1 contract (data, [])).2.2 =
      contractSpec.solver.evaluations (contractSpec.objective unadjusted.read frame 0 1 contract)
        contractSpec.config.accuracy guess epsilon CurveKind.ceiling data := by
    rw [CurveSpec.observeSegment, hrange]
    rfl
  rw [hsegment]
  rcases hlow : contractSpec.objective unadjusted.read frame 0 1 contract epsilon data with ⟨e | v, data'⟩
  · rw [Solver.evaluations_error _ haccuracy CurveKind.epsilon_lt_ceiling hbudget hlow]
    exact List.cons_ne_nil _ _
  · obtain ⟨curve, -, hpriced⟩ := Outcome.bind_ok.mp (congrArg Prod.fst hlow)
    exact absurd contract_unadjusted (Instrument.not_unadjusted hpriced)

/-- **A missing convexity adjustment is not a configuration error.** The price of the contract is known and
its adjustment is not; the objective is evaluated, and the calculation does not converge. -/
theorem missing_adjustment_evaluated :
    ∃ e, (unadjusted.calculate 0).1 = .error e ∧ e.kind = .convergence ∧
      contractSpec.evaluations unadjusted.read unadjusted.evaluation.current ≠ [] := by
  have hcurve : unadjusted.curves[0]? = some { spec := contractSpec } := rfl
  have hreference : contractSpec.reference.resolve unadjusted.evaluation.current =
      (.ok start : Outcome ℝ Date) := rfl
  obtain ⟨i, -, earlier, cause, -, he⟩ := CurveSpec.bootstrap_unadjusted hreference
    (CurveSpec.not_refused contract_checked contract_frame) (by decide) (j := 0) rfl contract_unadjusted
  have hfirst := CurveSpec.evaluations_first hreference contract_checked contract_frame (by decide) rfl
  refine ⟨.segmentUnsolved earlier.maturity (i + 1) 1 cause, ?_, rfl, fun hnothing => ?_⟩
  · rw [calculate_uncalculated hcurve rfl]
    exact congrArg (Except.map fun _ => ()) he
  · rw [hnothing] at hfirst
    exact contract_evaluated _ (List.suffix_nil.mp hfirst)

end OneDeposit

end RateCurves
