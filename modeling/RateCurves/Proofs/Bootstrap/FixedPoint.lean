import RateCurves.Proofs.Bootstrap.Truncation
import RateCurves.Proofs.RootSearch.Budget

/-!
# The second pass

Under a local scheme a later pass that starts from the nodes of an earlier one meets at each segment what
the earlier one has met: the nodes up to the segment are already the ones it ends with, so the objective
has the same values and the search the same bounds. The guess is another one, but bisection does not look
at it. So a pass of bisection is a fixed point of the passes after it (`pass_again`), and a bootstrap
whose first pass succeeds ends in the second one at the latest, with the nodes of the first
(`bootstrap_first_pass`).
-/

namespace RateCurves

open Scalar

namespace CurveSpec

variable {κ : Type} {spec : CurveSpec κ ℝ} {read : κ → Option ℝ} {reference : Date} {frame : Frame ℝ}

/-! ## Search ranges -/

section range

variable {iteration i : Nat} {data : List ℝ} {range : SearchRange ℝ}
  (h : spec.searchRange frame iteration i data = .ok range)
include h

theorem searchRange_bounds : range.low = spec.kind.least spec.config.negativeRates ∧
    range.high = spec.kind.greatest spec.config.negativeRates i data := by
  obtain ⟨guess, -, hrange⟩ := Outcome.bind_ok.mp h
  cases hrange
  exact ⟨rfl, rfl⟩

theorem searchRange_guess (hproper : range.low < range.high) :
    range.low < range.guess ∧ range.guess < range.high := by
  obtain ⟨guess, -, hrange⟩ := Outcome.bind_ok.mp h
  cases hrange
  simp only [lit_two, Bool.or_eq_true, decide_eq_true_eq] at hproper ⊢
  split_ifs with houtside
  · constructor <;> linarith
  · exact ⟨not_le.mp fun hle => houtside (.inl hle), not_le.mp fun hle => houtside (.inr hle)⟩

end range

theorem searchRange_later (spec : CurveSpec κ ℝ) (frame : Frame ℝ) {iteration : Nat} (h : iteration ≠ 0)
    (i : Nat) (data : List ℝ) : ∃ range, spec.searchRange frame iteration i data = .ok range := by
  refine ⟨_, Outcome.bind_ok.mpr ⟨0.99 * data.getD i 0.0, ?_, rfl⟩⟩
  rw [firstGuess, if_pos h]

/-! ## A segment once more -/

section solved

variable {iteration : Nat} {before after : List ℝ} {i : Nat} {instrument : Instrument κ ℝ}
  {working : List ℝ} {range : SearchRange ℝ} {root : ℝ}
  (h : spec.Solved read frame iteration before after i instrument working range root)
include h

theorem Solved.objective_root :
    ∃ v, (spec.objective read frame iteration (i + 1) instrument root working).1 = .ok v := by
  obtain ⟨-, found⟩ := Solver.root_valued spec.solver
    (spec.objective read frame iteration (i + 1) instrument) spec.config.accuracy range.guess range.low
    range.high working
  obtain ⟨v, hv⟩ := found root h.found
  exact ⟨v, objective_evaluated hv⟩

theorem Solved.admitted : 0 < spec.config.accuracy ∧ range.low < range.high := by
  by_contra hrefused
  rw [← lit_zero] at hrefused
  obtain ⟨e, he, -⟩ := spec.solver.solve_refused
    (spec.objective read frame iteration (i + 1) instrument) working range.guess (not_and_or.mp hrefused)
  have hfound := h.found
  rw [he] at hfound
  cases hfound

theorem Solved.greatest_kept : spec.kind.greatest spec.config.negativeRates (i + 1) after =
    spec.kind.greatest spec.config.negativeRates (i + 1) working := by
  unfold CurveKind.greatest
  cases hkind : spec.kind with
  | discount =>
    -- the factor before is not the one that is solved for
    have hbefore : after[i]? = working[i]? := by
      rw [h.kept i (Nat.le_succ i), CurveKind.place_before (.inl hkind) (Nat.lt_succ_self i)]
    simp only [Nat.add_sub_cancel, List.getD_eq_getElem?_getD, hbefore]
  | forwardRate | zeroYield => rfl

section later

variable (hlocal : spec.scheme.isGlobal = false) (hframe : spec.Framed reference frame)
  (hlength : after.length = spec.instruments.length + 1)
  (hpositive : spec.scheme = .logLinear → ∀ y ∈ after, 0 < y)
include hlocal hframe hlength hpositive

/-- The objective of a later pass, on the nodes that this one ends with, has all values that it has had in
this one. The trial values that have been left in the nodes differ, but only at the node itself. -/
theorem Solved.objective_later (later : Nat) (x : ℝ) : Trial.Agrees (fun _ => False)
    (fun data data' => (∀ y, spec.kind.place data y (i + 1) = spec.kind.place working y (i + 1)) ∧
      ∀ y, spec.kind.place data' y (i + 1) = spec.kind.place after y (i + 1))
    (spec.objective read frame iteration (i + 1) instrument x)
    (spec.objective read frame later (i + 1) instrument x) := by
  rintro data data' ⟨hdata, hdata'⟩ hvalued
  rw [objective_placed _ _ _ _ _ _ _ hdata] at hvalued ⊢
  rw [objective_placed _ _ _ _ _ _ _ hdata']
  refine ⟨?_, fun y => CurveKind.place_place .., fun y => CurveKind.place_place ..⟩
  cases hfirst : (spec.objective read frame iteration (i + 1) instrument x working).1 with
  | error e => exact (hvalued e hfirst).elim
  | ok v =>
    refine (objective_agree hlocal hframe h.instrument_eq hlength (fun j hj => ?_) ?_ hfirst).symm
    · exact (h.place_kept hj x).symm
    · exact fun hlog j _ _ y hy => hpositive hlog y (List.mem_of_getElem? hy)

/-- Solved once more by bisection, on the nodes that the pass ends with, a segment has the same root. -/
theorem Solved.again (hbisection : spec.solver.algorithm = .bisection) {later : Nat} (hlater : later ≠ 0) :
    ∃ left, spec.solveSegment read frame later (i + 1) instrument after = (.ok root, left) ∧
      spec.kind.place left root (i + 1) = after := by
  obtain ⟨range', hrange'⟩ := searchRange_later spec frame hlater (i + 1) after
  have hlow : range'.low = range.low :=
    (searchRange_bounds hrange').1.trans (searchRange_bounds h.searched).1.symm
  have hhigh : range'.high = range.high := by
    rw [(searchRange_bounds hrange').2, (searchRange_bounds h.searched).2, h.greatest_kept]
  have hguess := searchRange_guess h.searched h.admitted.2
  have hguess' := searchRange_guess hrange' (by rw [hlow, hhigh]; exact h.admitted.2)
  rw [hlow, hhigh] at hguess'
  have hagrees := Solver.solve_agrees (h.objective_later hlocal hframe hlength hpositive later) spec.solver
    spec.config.accuracy range'.guess range.low range.high working after ⟨fun _ => rfl, fun _ => rfl⟩
  rw [← Solver.solve_guess hbisection _ _ hguess hguess', h.found] at hagrees
  obtain ⟨hroot, -, hplace⟩ := hagrees nofun
  refine ⟨_, ?_, (hplace root).trans h.place_root⟩
  rw [solveSegment_eq hrange', hlow, hhigh]
  exact Prod.ext hroot.symm rfl

end later

end solved

/-! ## A pass once more -/

theorem pass_fixed {iteration : Nat} {data : List ℝ}
    (h : ∀ (i : Nat) instrument, spec.instruments[i]? = some instrument → ∃ root left,
      spec.solveSegment read frame iteration (i + 1) instrument data = (.ok root, left) ∧
        spec.kind.place left root (i + 1) = data) :
    spec.pass read frame iteration data = .ok data := by
  suffices hfrom : ∀ rest i, spec.instruments.drop i = rest →
      spec.solveFrom read frame iteration (i + 1) rest data = .ok data from hfrom _ 0 rfl
  intro rest
  induction rest with
  | nil => exact fun _ _ => rfl
  | cons instrument rest ih =>
    intro i hdrop
    have hget : spec.instruments[i]? = some instrument := by
      rw [← List.head?_drop, hdrop]
      rfl
    obtain ⟨root, left, hsegment, hplace⟩ := h i instrument hget
    have hrest : spec.instruments.drop (i + 1) = rest := by
      rw [← List.tail_drop, hdrop]
      rfl
    rw [solveFrom, hsegment]
    show spec.solveFrom read frame iteration (i + 1 + 1) rest (spec.kind.place left root (i + 1)) = _
    rw [hplace]
    exact ih (i + 1) hrest

section pass

variable {iteration : Nat} {before after : List ℝ}
  (hlocal : spec.scheme.isGlobal = false) (hlength : before.length = spec.instruments.length + 1)
  (hpass : spec.pass read frame iteration before = .ok after)
include hlocal hlength hpass

/-- Under the log-linear scheme the nodes that a pass ends with are positive, since the last segment has
seen a curve through them. -/
theorem pass_positive (hlog : spec.scheme = .logLinear) (hsome : 0 < spec.instruments.length) :
    ∀ y ∈ after, 0 < y := by
  obtain ⟨n, hn⟩ : ∃ n, spec.instruments.length = n + 1 := ⟨spec.instruments.length - 1, by omega⟩
  have hlast : n < spec.instruments.length := by omega
  obtain ⟨working, range, root, hs⟩ := pass_ok hpass hlast
  obtain ⟨v, hv⟩ := hs.objective_root
  rw [objective_apply] at hv
  obtain ⟨c, hc, -⟩ := Outcome.bind_ok.mp hv
  obtain ⟨hscheme, hspan⟩ := stage_local hlocal iteration hlast
  unfold partialCurve at hc
  rw [hscheme, hlog] at hc
  intro y hy
  obtain ⟨j, hj⟩ := List.mem_iff_getElem?.mp hy
  have hle : j ≤ n + 1 := by
    have := (List.getElem?_eq_some_iff.mp hj).1
    rw [solveFrom_length hpass] at this
    omega
  refine LogLinear.accepts_iff.mp (NodeCurve.fit_accepts hc) y (List.mem_of_getElem? (i := j) ?_)
  rw [List.getElem?_take_of_lt (by omega), ← hs.kept j hle, hj]

/-- Bisection finds in a later pass what it has found before. -/
theorem pass_again (hbisection : spec.solver.algorithm = .bisection) (hframe : spec.Framed reference frame)
    {later : Nat} (hlater : later ≠ 0) : spec.pass read frame later after = .ok after := by
  refine pass_fixed fun i instrument hi => ?_
  obtain ⟨hbound, rfl⟩ := List.getElem?_eq_some_iff.mp hi
  obtain ⟨working, range, root, hs⟩ := pass_ok hpass hbound
  obtain ⟨left, hsegment, hplace⟩ := hs.again hlocal hframe ((solveFrom_length hpass).trans hlength)
    (fun hlog => pass_positive hlocal hlength hpass hlog (Nat.zero_lt_of_lt hbound)) hbisection hlater
  exact ⟨root, left, hsegment, hplace⟩

end pass

/-! ## The bootstrap -/

theorem accuracy_pos_of_pass {iteration : Nat} {before after : List ℝ}
    (hpass : spec.pass read frame iteration before = .ok after) (hsome : 0 < spec.instruments.length) :
    0 < spec.config.accuracy := by
  obtain ⟨working, range, root, hs⟩ := pass_ok hpass hsome
  exact hs.admitted.1

section bootstrap

variable {today : Option Date} {first : List ℝ} (hlocal : spec.scheme.isGlobal = false)
  (hbisection : spec.solver.algorithm = .bisection) (hsome : 0 < spec.instruments.length)
  (hframe : spec.frame reference = .ok frame) (hfirst : spec.passes read frame 1 = .ok first)
include hlocal hbisection hframe hfirst

theorem second_pass_fixed : spec.pass read frame 1 first = .ok first :=
  pass_again hlocal (List.length_replicate ..) hfirst hbisection (frame_ok hframe) one_ne_zero

include hsome

/-- A curve goes through the nodes of the first pass, and it is the one that is published. -/
theorem bootstrap_of_first_pass (hmax : 2 ≤ spec.config.maxIterations)
    (hreference : spec.reference.resolve today = (.ok reference : Outcome ℝ Date))
    (hchecked : spec.checkInstruments read reference = .ok ()) :
    ∃ curve, spec.bootstrap read today = .ok curve ∧ curve.data = first := by
  have hframed := frame_ok hframe
  have hlength := passes_length hfirst
  obtain ⟨curve, hfit⟩ : ∃ curve, NodeCurve.fit spec.kind spec.dayCount spec.scheme frame.dates frame.times
      first = .ok curve := by
    refine NodeCurve.fit_exists ?_ hframed.times_lt ?_ fun hlog => ?_
    · rw [hframed.times_length]
      omega
    · rw [hlength, hframed.times_length]
    · exact pass_positive hlocal (List.length_replicate ..) hfirst hlog hsome
  obtain ⟨more, hmore⟩ : ∃ more, spec.config.maxIterations = more + 2 :=
    ⟨spec.config.maxIterations - 2, by omega⟩
  refine ⟨curve, bootstrap_eq hreference hchecked hframe ?_ hfit, ?_⟩
  · rw [hmore]
    exact settle_second hfirst (second_pass_fixed hlocal hbisection hframe hfirst)
      (accuracy_pos_of_pass hfirst hsome) more
  · obtain ⟨_, _, -, -, rfl⟩ := NodeCurve.fit_ok hfit
    rfl

/-- **Under a local scheme one pass of bisection is enough.** If all segments of the first pass are solved
and a second pass is allowed, the bootstrap succeeds in one of the two, with the nodes of the first. -/
theorem bootstrap_first_pass (hmax : 2 ≤ spec.config.maxIterations)
    (hreference : spec.reference.resolve today = (.ok reference : Outcome ℝ Date))
    (hchecked : spec.checkInstruments read reference = .ok ()) :
    ∃ curve iteration before, spec.bootstrap read today = .ok curve ∧ iteration ≤ 1 ∧
      spec.Published read frame iteration before curve ∧ curve.data = first := by
  obtain ⟨curve, hcurve, hdata⟩ :=
    bootstrap_of_first_pass hlocal hbisection hsome hframe hfirst hmax hreference hchecked
  obtain ⟨reference', frame', iteration, before, hreference', hframe', hpublished⟩ := bootstrap_ok hcurve
  obtain rfl : reference = reference' := Except.ok.inj (hreference.symm.trans hreference')
  obtain rfl : frame = frame' := Except.ok.inj (hframe.symm.trans hframe')
  refine ⟨curve, iteration, before, hcurve, ?_, hpublished, hdata⟩
  -- a third pass would mean that the second one has changed the nodes
  by_contra hthird
  exact hpublished.unsettled 1 (not_le.mp hthird) first first hfirst
    (second_pass_fixed hlocal hbisection hframe hfirst)
    (settled_self spec (accuracy_pos_of_pass hfirst hsome) first)

end bootstrap

end CurveSpec

/-- The curve over both deposits has the nodes of its first pass. -/
theorem TwoDeposits.first_pass_published : ∃ curve iteration before,
    spec.bootstrap quote none = .ok curve ∧ iteration ≤ 1 ∧
      spec.Published quote frame iteration before curve ∧ curve.data = [1, 1, epsilon] :=
  CurveSpec.bootstrap_first_pass rfl rfl Nat.two_pos frame_spec first_pass (by decide) rfl checked

end RateCurves
