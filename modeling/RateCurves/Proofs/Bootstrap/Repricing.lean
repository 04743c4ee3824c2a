import RateCurves.Proofs.Bootstrap.Nodes
import RateCurves.Proofs.Instrument.Locality

/-!
# Repricing

In exact arithmetic the published curve implies the quotes it was made from as far as the solver went:
the error of an instrument against the curve is the value of the objective at the root that its segment
accepted in the last pass (`bootstrap_reprices`). An objective never looks past its own node, except
under a global scheme, where this holds for the last instrument alone. Moved to another value that the
search has tried, the node gives the error that the search has seen there (`Published.error_tried`), so that a
sign change in the search is one of the error on the published curve.
-/

namespace RateCurves

open Scalar

/-! ## Definitions -/

section definitions

variable {κ α : Type} [Scalar α]

/-- The curve with `x` in place at node `i`. -/
def NodeCurve.withNode (scheme : Scheme) (curve : NodeCurve α) (i : Nat) (x : α) :
    Outcome α (NodeCurve α) :=
  fit curve.kind curve.dayCount scheme curve.dates curve.times (curve.kind.place curve.data x i)

namespace CurveSpec

variable (spec : CurveSpec κ α) (read : κ → Option α)

/-- The error of an instrument's quote with `x` in place at node `i` of a curve. -/
def errorWithNode (curve : NodeCurve α) (i : Nat) (instrument : Instrument κ α) (extrapolates : Bool)
    (x : α) : Outcome α α := do
  let moved ← curve.withNode spec.scheme i x
  instrument.quoteError read (moved.view extrapolates)

/-- What the search for the value of node `i` has looked at. -/
def tried (frame : Frame α) (iteration i : Nat) (instrument : Instrument κ α) (working : List α)
    (range : SearchRange α) : History α :=
  spec.solver.evaluations (spec.objective read frame iteration i instrument) spec.config.accuracy
    range.guess range.low range.high working

end CurveSpec

end definitions

/-! ## Objectives and the published curve -/

namespace CurveSpec

variable {κ : Type} {spec : CurveSpec κ ℝ} {read : κ → Option ℝ} {frame : Frame ℝ}

section published

variable {reference : Date} {iteration : Nat} {before : List ℝ} {curve : NodeCurve ℝ}
  {i : Nat} {instrument : Instrument κ ℝ} {working : List ℝ} {range : SearchRange ℝ} {root : ℝ}
  (h : spec.Published read frame iteration before curve)
  (hs : spec.Solved read frame iteration before curve.data i instrument working range root)
include h

theorem Published.withNode_eq (x : ℝ) :
    curve.withNode spec.scheme (i + 1) x = NodeCurve.fit spec.kind spec.dayCount spec.scheme frame.dates
      frame.times (spec.kind.place curve.data x (i + 1)) := by
  obtain ⟨hkind, hdayCount, hdates, htimes⟩ := h.curve_eq
  rw [NodeCurve.withNode, hkind, hdayCount, hdates, htimes]

include hs

theorem Published.withNode_root : curve.withNode spec.scheme (i + 1) root = .ok curve := by
  rw [h.withNode_eq, hs.place_root, h.fitted]

theorem Published.withNode_ok {x : ℝ} {c : NodeCurve ℝ}
    (hc : spec.partialCurve frame (spec.stage iteration (i + 1)).1 (spec.stage iteration (i + 1)).2
      (spec.kind.place working x (i + 1)) = .ok c) :
    ∃ moved, curve.withNode spec.scheme (i + 1) x = .ok moved := by
  rw [h.withNode_eq]
  apply NodeCurve.fit_refit h.fitted (CurveKind.place_length ..)
  intro hscheme haccepts
  have hlocal : spec.scheme.isGlobal = false := by
    rw [hscheme]
    rfl
  obtain ⟨hsame, hspan⟩ := stage_local hlocal iteration hs.lt
  rw [hsame, hscheme] at hc
  have hpositive := List.all_eq_true.mp (NodeCurve.fit_accepts hc)
  have hx : x ∈ (spec.kind.place working x (i + 1)).take (spec.stage iteration (i + 1)).2 := by
    apply List.mem_of_getElem? (i := i + 1)
    rw [List.getElem?_take_of_lt hspan]
    apply CurveKind.place_at
    rw [h.working_length hs]
    exact Nat.succ_lt_succ hs.lt
  apply List.all_eq_true.mpr
  intro y hy
  rcases CurveKind.mem_place hy with rfl | hy
  · exact hpositive y hx
  · exact List.all_eq_true.mp haccepts y hy

/-- The curve an objective looks at is the published one up to its node, if that is moved to where the
objective has it. -/
theorem Published.moved_agree (hframe : spec.Framed reference frame)
    (hlook : spec.scheme.isGlobal = false ∨ i + 1 = spec.instruments.length) {x : ℝ}
    {c moved : NodeCurve ℝ}
    (hc : spec.partialCurve frame (spec.stage iteration (i + 1)).1 (spec.stage iteration (i + 1)).2
      (spec.kind.place working x (i + 1)) = .ok c)
    (hmoved : curve.withNode spec.scheme (i + 1) x = .ok moved) :
    NodeCurve.AgreeUntil (spec.dayCount.yearFraction reference instrument.maturity) c moved := by
  rw [h.withNode_eq] at hmoved
  unfold partialCurve at hc
  by_cases hlocal : spec.scheme.isGlobal = false
  · obtain ⟨hscheme, hspan⟩ := stage_local hlocal iteration hs.lt
    rw [hscheme] at hc
    have htake {β : Type} (xs : List β) (j : Nat) (hj : j ≤ i + 1) :
        (xs.take (spec.stage iteration (i + 1)).2)[j]? = xs[j]? := List.getElem?_take_of_lt (by omega)
    have hreference : (frame.dates.take (spec.stage iteration (i + 1)).2).headD .first =
        frame.dates.headD .first := by
      rw [hframe.dates_take (by omega), hframe.dates_eq, List.headD_cons]
    refine NodeCurve.fit_agree hlocal hc hmoved hreference (Nat.succ_pos i) ?_ ?_ ?_
    · exact hframe.time_take hs.instrument_eq hspan
    · intro j hj
      exact htake _ _ hj
    · intro j hj
      exact (htake _ _ hj).trans (hs.place_kept hj x).symm
  · -- the objective of the last node has all nodes
    have hlast := hlook.resolve_left hlocal
    obtain ⟨hspan, hscheme⟩ := stage_last iteration hlast
    have hlength := h.working_length hs
    have hsame : spec.kind.place working x (i + 1) = spec.kind.place curve.data x (i + 1) := by
      apply List.ext_getElem?
      intro j
      rcases Nat.lt_or_ge (i + 1) j with hj | hj
      · rw [List.getElem?_eq_none, List.getElem?_eq_none] <;> rw [CurveKind.place_length]
        · rw [h.length]
          omega
        · omega
      · exact (hs.place_kept hj x).symm
    have hall : (spec.kind.place curve.data x (i + 1)).length ≤ spec.instruments.length + 1 := by
      rw [CurveKind.place_length, h.length]
    rw [hspan, hsame, List.take_of_length_le hframe.dates_length.le,
      List.take_of_length_le hframe.times_length.le, List.take_of_length_le hall] at hc
    rcases hscheme with hscheme | ⟨hlinear, hcubic, hpair⟩
    · rw [hscheme, hmoved] at hc
      cases hc
      exact ⟨rfl, rfl, fun _ _ => rfl⟩
    · rw [hlinear] at hc
      rw [hcubic] at hmoved
      refine NodeCurve.fit_pair hc hmoved ?_ _
      rw [hframe.times_length, hpair]

/-- What the search has seen at a value is the error against the published curve with its node there. -/
theorem Published.error_tried (hframe : spec.Framed reference frame)
    (hlook : spec.scheme.isGlobal = false ∨ i + 1 = spec.instruments.length) {x v : ℝ}
    (hv : Valued (spec.tried read frame iteration (i + 1) instrument working range) x v)
    (extrapolates : Bool) : spec.errorWithNode read curve (i + 1) instrument extrapolates x = .ok v := by
  have hobjective := objective_evaluated hv
  rw [objective_apply] at hobjective
  obtain ⟨c, hc, herror⟩ := Outcome.bind_ok.mp hobjective
  obtain ⟨moved, hmoved⟩ := h.withNode_ok hs hc
  have agree := h.moved_agree hs hframe hlook hc hmoved
  refine Outcome.bind_ok.mpr ⟨moved, hmoved, ?_⟩
  rw [← herror]
  refine (instrument.quoteError_congr read fun date hdate => ?_).symm
  have hdates : moved.dates = frame.dates ∧ moved.dayCount = spec.dayCount := by
    rw [h.withNode_eq] at hmoved
    obtain ⟨_, _, -, -, rfl⟩ := NodeCurve.fit_ok hmoved
    exact ⟨rfl, rfl⟩
  refine agree.discountOn ?_ (.inl rfl) (.inr ?_)
  · rw [agree.dayCount, agree.reference, hdates.1, hdates.2, hframe.dates_eq, List.headD_cons]
    exact spec.dayCount.yearFraction_le reference hdate
  · rw [hdates.1]
    exact hdate.trans (hframe.maturity_le hs.instrument_eq)

end published

/-! ## Repriced instruments -/

/-- An instrument against the curve it was bootstrapped into: its error is the one that the search
accepted its node with, and near its node the error changes sign if the solver is one that ensures it. -/
structure Repriced (spec : CurveSpec κ ℝ) (read : κ → Option ℝ) (curve : NodeCurve ℝ) (i : Nat)
    (instrument : Instrument κ ℝ) (log : History ℝ) (root error : ℝ) : Prop where
  node : curve.data[i]? = some root
  accepted : Valued log root error
  error_eq : ∀ extrapolates, instrument.quoteError read (curve.view extrapolates) = .ok error
  crosses : spec.solver.algorithm ≠ .falsePosition → close error 0 = true ∨
    ∃ x other, |x - root| ≤ Max.max spec.config.accuracy epsilon + 4 * epsilon * |root| ∧
      error * other < 0 ∧
      ∀ extrapolates, spec.errorWithNode read curve i instrument extrapolates x = .ok other

/-- The instruments of the last pass are repriced, all of them under a local scheme and otherwise the
last one. -/
def Reprices (spec : CurveSpec κ ℝ) (read : κ → Option ℝ) (frame : Frame ℝ) (iteration : Nat)
    (before : List ℝ) (curve : NodeCurve ℝ) : Prop :=
  ∀ (i : Nat) instrument, spec.instruments[i]? = some instrument →
    (spec.scheme.isGlobal = false ∨ i + 1 = spec.instruments.length) →
    ∃ working range root error,
      spec.Solved read frame iteration before curve.data i instrument working range root ∧
      spec.Repriced read curve (i + 1) instrument
        (spec.tried read frame iteration (i + 1) instrument working range) root error

/-- In the last pass of a bootstrap each segment has accepted its node with the error that its instrument
has against the published curve. -/
theorem bootstrap_reprices {today : Option Date} {curve : NodeCurve ℝ}
    (h : spec.bootstrap read today = .ok curve) :
    ∃ reference frame iteration before,
      spec.reference.resolve today = (.ok reference : Outcome ℝ Date) ∧
      spec.frame reference = .ok frame ∧ spec.Published read frame iteration before curve ∧
      spec.Reprices read frame iteration before curve := by
  obtain ⟨reference, frame, iteration, before, hreference, hframe, hpublished⟩ := bootstrap_ok h
  refine ⟨reference, frame, iteration, before, hreference, hframe, hpublished, ?_⟩
  intro i instrument hinstrument hlook
  obtain ⟨hi, rfl⟩ := List.getElem?_eq_some_iff.mp hinstrument
  obtain ⟨working, range, root, hs⟩ := pass_ok hpublished.solved hi
  have hseen {x v : ℝ} (hv : Valued (spec.tried read frame iteration (i + 1) spec.instruments[i] working
      range) x v) := hpublished.error_tried hs (frame_ok hframe) hlook hv
  have hroot {error : ℝ} (herror : Valued (spec.tried read frame iteration (i + 1) spec.instruments[i]
      working range) root error) (extrapolates : Bool) :
      spec.instruments[i].quoteError read (curve.view extrapolates) = .ok error := by
    have hmoved := hseen herror extrapolates
    rwa [errorWithNode, hpublished.withNode_root hs] at hmoved
  by_cases hsolver : spec.solver.algorithm = .falsePosition
  · obtain ⟨-, found⟩ := Solver.root_valued spec.solver _ _ _ _ _ _
    obtain ⟨error, herror⟩ := found root hs.found
    exact ⟨working, range, root, error, hs, hpublished.root_kept hs, herror, hroot herror,
      fun h => absurd hsolver h⟩
  · obtain ⟨error, herror, hcrosses⟩ := Solver.root_crosses hsolver _ _ _ _ _ _ hs.found
    refine ⟨working, range, root, error, hs, hpublished.root_kept hs, herror, hroot herror, fun _ => ?_⟩
    rcases hcrosses with hclose | ⟨x, other, hother, opposite, hnear⟩
    · exact .inl hclose
    · exact .inr ⟨x, other, hnear, opposite, hseen hother⟩

end CurveSpec

/-- Both deposits are repriced. -/
theorem TwoDeposits.reprices : ∃ curve, spec.bootstrap quote none = .ok curve ∧
    ∃ reference frame iteration before,
      spec.reference.resolve none = (.ok reference : Outcome ℝ Date) ∧
      spec.frame reference = .ok frame ∧ spec.Published quote frame iteration before curve ∧
      spec.Reprices quote frame iteration before curve := by
  obtain ⟨curve, hcurve, -⟩ := bootstrap_spec
  exact ⟨curve, hcurve, CurveSpec.bootstrap_reprices hcurve⟩

end RateCurves
