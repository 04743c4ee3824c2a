import RateCurves.Proofs.Curve.Agree
import RateCurves.Proofs.RootSearch.History
import RateCurves.Bootstrap.Solve

/-!
# Passes and segments

What a successful bootstrap has done. The nodes that are published are those of a last pass
(`settle_ok`). In a pass each segment starts from the nodes that the segments before it left, and its
root stays where it was placed until the pass ends (`pass_ok`). Trial values stay in the nodes while a
segment is solved, but only at the node in question, where the root replaces them
(`objective_placed`).
-/

namespace RateCurves

/-! ## Placing values -/

namespace CurveKind

variable {α : Type} {kind : CurveKind} {i j : Nat}

theorem place_other (h : kind = .discount ∨ i ≠ 1) (data : List α) (x : α) :
    kind.place data x i = data.set i x := by
  cases kind with
  | discount => rfl
  | forwardRate | zeroYield => exact if_neg (h.resolve_left nofun)

theorem place_rate_one (h : kind ≠ .discount) (data : List α) (x : α) :
    kind.place data x 1 = (data.set 1 x).set 0 x := by
  cases kind with
  | discount => exact absurd rfl h
  | forwardRate | zeroYield => rfl

theorem place_cases (α : Type) (kind : CurveKind) (i : Nat) :
    (∀ (data : List α) x, kind.place data x i = data.set i x) ∨
      kind ≠ .discount ∧ i = 1 ∧ ∀ (data : List α) x, kind.place data x i = (data.set 1 x).set 0 x := by
  by_cases h : kind = .discount ∨ i ≠ 1
  · exact .inl (place_other h)
  · obtain ⟨hkind, hi⟩ := not_or.mp h
    obtain rfl := not_ne_iff.mp hi
    exact .inr ⟨hkind, rfl, place_rate_one hkind⟩

theorem place_length (kind : CurveKind) (data : List α) (x : α) (i : Nat) :
    (kind.place data x i).length = data.length := by
  rcases place_cases α kind i with h | ⟨-, -, h⟩ <;> simp only [h, List.length_set]

theorem mem_place {data : List α} {x y : α} (h : y ∈ kind.place data x i) : y = x ∨ y ∈ data := by
  rcases place_cases α kind i with hplace | ⟨-, -, hplace⟩
  · rw [hplace] at h
    exact (List.mem_or_eq_of_mem_set h).symm
  · rw [hplace] at h
    rcases List.mem_or_eq_of_mem_set h with h | h
    · exact (List.mem_or_eq_of_mem_set h).symm
    · exact .inl h

theorem place_place (kind : CurveKind) (data : List α) (x y : α) (i : Nat) :
    kind.place (kind.place data x i) y i = kind.place data y i := by
  rcases place_cases α kind i with h | ⟨-, -, h⟩
  · rw [h, h, h, List.set_set]
  · rw [h, h, h, List.set_comm x y Nat.zero_ne_one, List.set_set, List.set_set]

theorem place_at {data : List α} (h : i < data.length) (x : α) :
    (kind.place data x i)[i]? = some x := by
  rcases place_cases α kind i with hplace | ⟨-, rfl, hplace⟩
  · rw [hplace, List.getElem?_set_self h]
  · rw [hplace, List.getElem?_set_ne Nat.zero_ne_one, List.getElem?_set_self h]

theorem place_first (hkind : kind ≠ .discount) {data : List α} (h : 0 < data.length) (x : α) :
    (kind.place data x 1)[0]? = some x := by
  rw [place_rate_one hkind, List.getElem?_set_self (by rwa [List.length_set])]

theorem place_before (hi : kind = .discount ∨ i ≠ 1) (hj : j < i) (data : List α) (x : α) :
    (kind.place data x i)[j]? = data[j]? := by
  rw [place_other hi, List.getElem?_set_ne (by omega)]

theorem place_after (hj : i < j) (data : List α) (x : α) : (kind.place data x i)[j]? = data[j]? := by
  rcases place_cases α kind i with hplace | ⟨-, rfl, hplace⟩
  · rw [hplace, List.getElem?_set_ne (by omega)]
  · rw [hplace, List.getElem?_set_ne (by omega), List.getElem?_set_ne (by omega)]

theorem getElem?_set_congr {a b : List α} (h : a[j]? = b[j]?) (x : α) (i : Nat) :
    (a.set i x)[j]? = (b.set i x)[j]? := by
  rw [List.getElem?_set', List.getElem?_set', h]

theorem place_congr {a b : List α} (h : a[j]? = b[j]?) (x : α) (i : Nat) :
    (kind.place a x i)[j]? = (kind.place b x i)[j]? := by
  rcases place_cases α kind i with hplace | ⟨-, -, hplace⟩
  · rw [hplace, hplace, getElem?_set_congr h]
  · rw [hplace, hplace, getElem?_set_congr (getElem?_set_congr h x 1)]

end CurveKind

variable {κ α : Type} [Scalar α]

namespace CurveSpec

variable (spec : CurveSpec κ α) (read : κ → Option α) (frame : Frame α)

/-! ## Segments -/

theorem objective_apply (iteration i : Nat) (instrument : Instrument κ α) (x : α) (data : List α) :
    spec.objective read frame iteration i instrument x data =
      ((do
        let curve ← spec.partialCurve frame (spec.stage iteration i).1 (spec.stage iteration i).2
          (spec.kind.place data x i)
        instrument.quoteError read (curve.view true)), spec.kind.place data x i) := rfl

/-- Trial values make no difference to the objective. -/
theorem objective_placed (iteration i : Nat) (instrument : Instrument κ α) (x : α) {data working : List α}
    (h : ∀ v, spec.kind.place data v i = spec.kind.place working v i) :
    spec.objective read frame iteration i instrument x data =
      spec.objective read frame iteration i instrument x working := by
  rw [objective_apply, objective_apply, h x]

/-- How node `i + 1`, that of `instrument`, has been solved for in a pass from `before` to `after`: the
segments before it have left the nodes `working`, `root` has been found in the given range, and up to the
node the nodes have stayed as they were with the root in place. -/
structure Solved (iteration : Nat) (before after : List α) (i : Nat) (instrument : Instrument κ α)
    (working : List α) (range : SearchRange α) (root : α) : Prop where
  instrument_eq : spec.instruments[i]? = some instrument
  reached : spec.solveFrom read frame iteration 1 (spec.instruments.take i) before = .ok working
  searched : spec.searchRange frame iteration (i + 1) working = .ok range
  found : (spec.solver.solve (spec.objective read frame iteration (i + 1) instrument)
    spec.config.accuracy range.guess range.low range.high working).1 = .ok root
  length_eq : working.length = before.length
  kept : ∀ j ≤ i + 1, after[j]? = (spec.kind.place working root (i + 1))[j]?

variable {spec read frame}

/-- What a search has seen is what the objective says of the nodes that the search started from. -/
theorem objective_evaluated {iteration i : Nat} {instrument : Instrument κ α} {working : List α}
    {accuracy guess low high x v : α}
    (h : Valued (spec.solver.evaluations (spec.objective read frame iteration i instrument) accuracy guess low
      high working) x v) :
    (spec.objective read frame iteration i instrument x working).1 = .ok v := by
  have same := Solver.evaluations_of_keeps
    (I := fun data => ∀ y, spec.kind.place data y i = spec.kind.place working y i)
    (G := fun y o => o = (spec.objective read frame iteration i instrument y working).1)
    (f := spec.objective read frame iteration i instrument)
    (fun y s hs => ⟨fun z => (CurveKind.place_place ..).trans (hs z),
      by rw [objective_placed _ _ _ _ _ _ _ hs]⟩)
    spec.solver accuracy guess low high (fun _ => rfl)
  exact (same _ h).symm

theorem stage_span (iteration : Nat) {i : Nat} (hi : i < spec.instruments.length) :
    i + 2 ≤ (spec.stage iteration (i + 1)).2 := by
  unfold stage
  split_ifs
  · exact Nat.succ_le_succ hi
  · exact le_rfl
  · exact le_rfl

theorem stage_local (hlocal : spec.scheme.isGlobal = false) (iteration : Nat) {i : Nat}
    (hi : i < spec.instruments.length) :
    (spec.stage iteration (i + 1)).1 = spec.scheme ∧ i + 2 ≤ (spec.stage iteration (i + 1)).2 := by
  refine ⟨?_, stage_span iteration hi⟩
  unfold stage
  rw [hlocal, Bool.false_and, if_neg Bool.false_ne_true]
  split_ifs <;> rfl

/-- At the last node it has all nodes, and the scheme is that of the curve, unless there are two nodes. -/
theorem stage_last (iteration : Nat) {i : Nat} (hi : i + 1 = spec.instruments.length) :
    (spec.stage iteration (i + 1)).2 = spec.instruments.length + 1 ∧
      ((spec.stage iteration (i + 1)).1 = spec.scheme ∨
        (spec.stage iteration (i + 1)).1 = .linear ∧ spec.scheme = .cubic ∧ spec.instruments.length = 1) := by
  unfold stage
  split_ifs with hiteration hglobal
  · exact ⟨rfl, .inl rfl⟩
  · obtain ⟨hglobal, hfirst⟩ := Bool.and_eq_true_iff.mp hglobal
    have hscheme : spec.scheme = .cubic := by
      cases h : spec.scheme <;> rw [h] at hglobal <;> first | rfl | cases hglobal
    have := of_decide_eq_true hfirst
    exact ⟨by omega, .inr ⟨rfl, hscheme, by omega⟩⟩
  · exact ⟨by omega, .inl rfl⟩

theorem solveSegment_eq {iteration i : Nat} {data : List α} {range : SearchRange α}
    (h : spec.searchRange frame iteration i data = .ok range) (instrument : Instrument κ α) :
    spec.solveSegment read frame iteration i instrument data =
      spec.solver.solve (spec.objective read frame iteration i instrument) spec.config.accuracy
        range.guess range.low range.high data := by
  show (Trial.ofOutcome (spec.searchRange frame iteration i data) >>= fun range =>
    spec.solver.solve (spec.objective read frame iteration i instrument) spec.config.accuracy
      range.guess range.low range.high) data = _
  rw [h]
  rfl

theorem solveSegment_ok {iteration i : Nat} {instrument : Instrument κ α} {working data : List α} {root : α}
    (h : spec.solveSegment read frame iteration i instrument working = (.ok root, data)) :
    (∃ range, spec.searchRange frame iteration i working = .ok range ∧
      (spec.solver.solve (spec.objective read frame iteration i instrument) spec.config.accuracy
        range.guess range.low range.high working).1 = .ok root) ∧
      ∀ v, spec.kind.place data v i = spec.kind.place working v i := by
  cases hrange : spec.searchRange frame iteration i working with
  | error e =>
    have hfailed : spec.solveSegment read frame iteration i instrument working =
        (Trial.ofOutcome (spec.searchRange frame iteration i working) >>= fun range =>
          spec.solver.solve (spec.objective read frame iteration i instrument) spec.config.accuracy
            range.guess range.low range.high) working := rfl
    rw [hfailed, hrange] at h
    cases h
  | ok range =>
    rw [solveSegment_eq hrange] at h
    refine ⟨⟨range, rfl, congrArg Prod.fst h⟩, ?_⟩
    have keeps := Solver.solve_keeps (I := fun data => ∀ v, spec.kind.place data v i =
      spec.kind.place working v i) (f := spec.objective read frame iteration i instrument)
      (fun x s hs v => (CurveKind.place_place ..).trans (hs v)) spec.solver spec.config.accuracy
      range.guess range.low range.high (fun _ => rfl)
    have hdata : (spec.solver.solve (spec.objective read frame iteration i instrument)
        spec.config.accuracy range.guess range.low range.high working).2 = data := congrArg Prod.snd h
    rwa [hdata] at keeps

/-- The first of several segments starts from the given nodes, and the others from those with its root in
place. -/
theorem solveFrom_cons {iteration i : Nat} {instrument : Instrument κ α} {rest : List (Instrument κ α)}
    {working after : List α}
    (h : spec.solveFrom read frame iteration i (instrument :: rest) working = .ok after) :
    ∃ range root, spec.searchRange frame iteration i working = .ok range ∧
      (spec.solver.solve (spec.objective read frame iteration i instrument) spec.config.accuracy
        range.guess range.low range.high working).1 = .ok root ∧
      spec.solveFrom read frame iteration (i + 1) rest (spec.kind.place working root i) = .ok after := by
  rw [solveFrom] at h
  rcases hsegment : spec.solveSegment read frame iteration i instrument working with ⟨e | root, data⟩
  · rw [hsegment] at h
    cases h
  · rw [hsegment] at h
    obtain ⟨⟨range, hrange, hroot⟩, hplace⟩ := solveSegment_ok hsegment
    exact ⟨range, root, hrange, hroot, hplace root ▸ h⟩

theorem solveFrom_append (iteration : Nat) (first rest : List (Instrument κ α)) (i : Nat) (data : List α) :
    spec.solveFrom read frame iteration i (first ++ rest) data =
      (spec.solveFrom read frame iteration i first data >>=
        spec.solveFrom read frame iteration (i + first.length) rest) := by
  induction first generalizing i data with
  | nil => rfl
  | cons instrument first ih =>
    rw [List.cons_append, solveFrom, solveFrom]
    rcases spec.solveSegment read frame iteration i instrument data with ⟨e | root, data⟩
    · rfl
    · simp only [ih, List.length_cons, Nat.add_assoc, Nat.add_comm 1]

theorem solveFrom_length {iteration i : Nat} {instruments : List (Instrument κ α)} {data after : List α}
    (h : spec.solveFrom read frame iteration i instruments data = .ok after) :
    after.length = data.length := by
  induction instruments generalizing i data with
  | nil =>
    cases h
    rfl
  | cons instrument rest ih =>
    obtain ⟨range, root, -, -, hrest⟩ := solveFrom_cons h
    rw [ih hrest, CurveKind.place_length]

theorem solveFrom_before {iteration i : Nat} {instruments : List (Instrument κ α)} {data after : List α}
    (h : spec.solveFrom read frame iteration i instruments data = .ok after)
    (hi : spec.kind = .discount ∨ 2 ≤ i) {j : Nat} (hj : j < i) : after[j]? = data[j]? := by
  induction instruments generalizing i data with
  | nil =>
    cases h
    rfl
  | cons instrument rest ih =>
    obtain ⟨range, root, -, -, hrest⟩ := solveFrom_cons h
    rw [ih hrest (hi.imp id (by omega)) (by omega), CurveKind.place_before (hi.imp id (by omega)) hj]

/-- Each node is solved for in a successful pass. -/
theorem pass_ok {iteration : Nat} {before after : List α}
    (h : spec.pass read frame iteration before = .ok after) {i : Nat} (hi : i < spec.instruments.length) :
    ∃ working range root,
      spec.Solved read frame iteration before after i spec.instruments[i] working range root := by
  have hsplit : spec.instruments = spec.instruments.take i ++ spec.instruments[i] ::
      spec.instruments.drop (i + 1) := by
    rw [← List.drop_eq_getElem_cons hi, List.take_append_drop]
  have hlength : (spec.instruments.take i).length = i := List.length_take_of_le hi.le
  rw [pass, hsplit, solveFrom_append, Outcome.bind_ok, hlength, Nat.add_comm 1 i] at h
  obtain ⟨working, hworking, h⟩ := h
  obtain ⟨range, root, hrange, hroot, hrest⟩ := solveFrom_cons h
  exact ⟨working, range, root, List.getElem?_eq_getElem hi, hworking, hrange, hroot,
    solveFrom_length hworking, fun j hj => solveFrom_before hrest (.inr (by omega)) (by omega)⟩

section solved

variable {iteration : Nat} {before after : List α} {i : Nat} {instrument : Instrument κ α}
  {working : List α} {range : SearchRange α} {root : α}
  (h : spec.Solved read frame iteration before after i instrument working range root)
include h

theorem Solved.lt : i < spec.instruments.length := (List.getElem?_eq_some_iff.mp h.instrument_eq).1

theorem Solved.place_kept {j : Nat} (hj : j ≤ i + 1) (x : α) :
    (spec.kind.place after x (i + 1))[j]? = (spec.kind.place working x (i + 1))[j]? := by
  rw [CurveKind.place_congr (h.kept j hj), CurveKind.place_place]

theorem Solved.place_root : spec.kind.place after root (i + 1) = after := by
  apply List.ext_getElem?
  intro j
  rcases Nat.lt_or_ge (i + 1) j with hj | hj
  · exact CurveKind.place_after hj _ _
  · rw [h.place_kept hj, h.kept j hj]

end solved

/-! ## Passes -/

variable (spec read frame)

/-- The nodes after some passes. -/
def passes : Nat → Outcome α (List α)
  | 0 => .ok (List.replicate (spec.instruments.length + 1) spec.kind.initialValue)
  | k + 1 => passes k >>= spec.pass read frame k

/-- No pass is needed after one from `before` to `after`. -/
def Settled (before after : List α) : Prop :=
  spec.singlePass = true ∨
    improvement before after ≤ Scalar.ofNat spec.instruments.length * spec.config.accuracy

/-- The pass numbered `iteration`, from the nodes `before` to the nodes `after`, is the first one after
which no other is needed. -/
structure LastPass (iteration : Nat) (before after : List α) : Prop where
  reached : spec.passes read frame iteration = .ok before
  solved : spec.pass read frame iteration before = .ok after
  settled : spec.Settled before after
  unsettled : ∀ k < iteration, ∀ data next, spec.passes read frame k = .ok data →
    spec.pass read frame k data = .ok next → ¬spec.Settled data next

variable {spec read frame}

/-- The nodes that settle are those of the last pass. -/
theorem settle_ok {more k : Nat} {data after : List α} (hdata : spec.passes read frame k = .ok data)
    (hunsettled : ∀ j < k, ∀ data next, spec.passes read frame j = .ok data →
      spec.pass read frame j data = .ok next → ¬spec.Settled data next)
    (h : spec.settle read frame more k data = .ok after) :
    ∃ iteration before, spec.LastPass read frame iteration before after := by
  induction more generalizing k data with
  | zero => cases h
  | succ more ih =>
    rw [settle, Outcome.bind_ok] at h
    obtain ⟨next, hnext, h⟩ := h
    have hiff : (spec.singlePass || decide (improvement data next ≤
        Scalar.ofNat spec.instruments.length * spec.config.accuracy)) = true ↔ spec.Settled data next := by
      rw [Bool.or_eq_true, decide_eq_true_iff, Settled]
    split at h
    · rename_i hstop
      cases h
      exact ⟨k, data, hdata, hnext, hiff.mp hstop, hunsettled⟩
    · rename_i hgo
      have hpasses : spec.passes read frame (k + 1) = .ok next := by
        rw [passes, hdata]
        exact hnext
      refine ih hpasses ?_ h
      intro j hj data' next' hdata' hnext'
      rcases Nat.lt_succ_iff_lt_or_eq.mp hj with hj | rfl
      · exact hunsettled j hj data' next' hdata' hnext'
      · -- passes are deterministic, so this is the pass that has just been made
        obtain rfl := Except.ok.inj (hdata.symm.trans hdata')
        obtain rfl := Except.ok.inj (hnext.symm.trans hnext')
        exact fun hsettled => hgo (hiff.mpr hsettled)

theorem settle_succ {more k : Nat} {data next : List α} (h : spec.pass read frame k data = .ok next) :
    spec.settle read frame (more + 1) k data =
      if (spec.singlePass || decide (improvement data next ≤
          Scalar.ofNat spec.instruments.length * spec.config.accuracy)) = true then .ok next
      else spec.settle read frame more (k + 1) next := by
  rw [settle, h]
  rfl

theorem passes_length {k : Nat} {data : List α} (h : spec.passes read frame k = .ok data) :
    data.length = spec.instruments.length + 1 := by
  induction k generalizing data with
  | zero =>
    cases h
    exact List.length_replicate
  | succ k ih =>
    rw [passes, Outcome.bind_ok] at h
    obtain ⟨before, hbefore, hpass⟩ := h
    rw [solveFrom_length hpass, ih hbefore]

theorem passes_first (hkind : spec.kind = .discount) {k : Nat} {data : List α}
    (h : spec.passes read frame k = .ok data) : data[0]? = some (1.0 : α) := by
  induction k generalizing data with
  | zero =>
    cases h
    rw [List.getElem?_replicate, if_pos (Nat.succ_pos _), hkind]
    rfl
  | succ k ih =>
    rw [passes, Outcome.bind_ok] at h
    obtain ⟨before, hbefore, hpass⟩ := h
    rw [solveFrom_before hpass (.inl hkind) one_pos, ih hbefore]

theorem checkInstruments_ok {reference : Date} :
    spec.checkInstruments read reference = .ok () ↔ ∀ instrument ∈ spec.instruments,
      reference < instrument.maturity ∧ ∃ quote, instrument.referenceQuote read = .ok quote := by
  unfold checkInstruments
  induction spec.instruments with
  | nil => exact ⟨fun _ _ h => absurd h List.not_mem_nil, fun _ => rfl⟩
  | cons instrument rest ih =>
    rw [List.forM, Outcome.bind_ok, List.forall_mem_cons]
    constructor
    · rintro ⟨⟨⟩, hfirst, hrest⟩
      obtain ⟨⟨⟩, hlater, hfirst⟩ := Outcome.bind_ok.mp hfirst
      obtain ⟨quote, hquote, -⟩ := Outcome.bind_ok.mp hfirst
      exact ⟨⟨of_decide_eq_true (Outcome.require_ok.mp hlater), quote, hquote⟩, ih.mp hrest⟩
    · rintro ⟨⟨hlater, quote, hquote⟩, hrest⟩
      refine ⟨(), Outcome.bind_ok.mpr ⟨(), ?_, Outcome.bind_ok.mpr ⟨quote, hquote, rfl⟩⟩, ih.mpr hrest⟩
      exact Outcome.require_ok.mpr (decide_eq_true hlater)

/-- A published curve: it has been fitted to the nodes that its last pass, numbered `iteration`, has made
from the nodes `before`. -/
structure Published (spec : CurveSpec κ α) (read : κ → Option α) (frame : Frame α) (iteration : Nat)
    (before : List α) (curve : NodeCurve α) : Prop
    extends LastPass spec read frame iteration before curve.data where
  fitted : NodeCurve.fit spec.kind spec.dayCount spec.scheme frame.dates frame.times curve.data =
    .ok curve

theorem bootstrap_ok {today : Option Date} {curve : NodeCurve α} (h : spec.bootstrap read today = .ok curve) :
    ∃ reference frame iteration before,
      spec.reference.resolve today = (.ok reference : Outcome α Date) ∧
      spec.frame reference = .ok frame ∧ spec.Published read frame iteration before curve := by
  obtain ⟨reference, hreference, h⟩ := Outcome.bind_ok.mp h
  obtain ⟨⟨⟩, -, h⟩ := Outcome.bind_ok.mp h
  obtain ⟨frame, hframe, h⟩ := Outcome.bind_ok.mp h
  obtain ⟨data, hsettle, hfit⟩ := Outcome.bind_ok.mp h
  obtain ⟨iteration, before, hlast⟩ := settle_ok rfl (fun j hj => absurd hj j.not_lt_zero) hsettle
  have hdata : curve.data = data := by
    obtain ⟨_, _, -, -, rfl⟩ := NodeCurve.fit_ok hfit
    rfl
  rw [← hdata] at hlast hfit
  exact ⟨reference, frame, iteration, before, hreference, hframe, hlast, hfit⟩

theorem bootstrap_eq {today : Option Date} {reference : Date} {data : List α} {curve : NodeCurve α}
    (hreference : spec.reference.resolve today = (.ok reference : Outcome α Date))
    (hchecked : spec.checkInstruments read reference = .ok ()) (hframe : spec.frame reference = .ok frame)
    (hsettle : spec.settle read frame spec.config.maxIterations 0
      (List.replicate (spec.instruments.length + 1) spec.kind.initialValue) = .ok data)
    (hfit : NodeCurve.fit spec.kind spec.dayCount spec.scheme frame.dates frame.times data = .ok curve) :
    spec.bootstrap read today = .ok curve :=
  Outcome.bind_ok.mpr ⟨reference, hreference, Outcome.bind_ok.mpr ⟨(), hchecked,
    Outcome.bind_ok.mpr ⟨frame, hframe, Outcome.bind_ok.mpr ⟨data, hsettle, hfit⟩⟩⟩⟩

section published

variable {iteration : Nat} {before : List α} {curve : NodeCurve α}
  (h : spec.Published read frame iteration before curve)
include h

theorem Published.length : curve.data.length = spec.instruments.length + 1 := by
  rw [solveFrom_length h.solved, passes_length h.reached]

theorem Published.curve_eq :
    curve.kind = spec.kind ∧ curve.dayCount = spec.dayCount ∧ curve.dates = frame.dates ∧
      curve.times = frame.times := by
  obtain ⟨_, _, -, -, hcurve⟩ := NodeCurve.fit_ok h.fitted
  exact ⟨by rw [hcurve], by rw [hcurve], by rw [hcurve], by rw [hcurve]⟩

variable {i : Nat} {instrument : Instrument κ α} {working : List α} {range : SearchRange α} {root : α}
  (hs : spec.Solved read frame iteration before curve.data i instrument working range root)
include hs

theorem Published.working_length : working.length = spec.instruments.length + 1 := by
  rw [hs.length_eq, passes_length h.reached]

theorem Published.root_kept : curve.data[i + 1]? = some root := by
  rw [hs.kept (i + 1) le_rfl, CurveKind.place_at]
  rw [h.working_length hs]
  exact Nat.succ_lt_succ hs.lt

end published

/-! ## Nodes that a pass does not change -/

section real

variable {κ : Type} {spec : CurveSpec κ ℝ} {read : κ → Option ℝ} {frame : Frame ℝ}

theorem improvement_self (data : List ℝ) : improvement data data = 0 := by
  have hsum : ∀ pairs : List (ℝ × ℝ), (∀ pair ∈ pairs, pair.1 = pair.2) →
      Scalar.sum (pairs.map fun pair => Scalar.abs (pair.1 - pair.2)) = 0 := by
    intro pairs hsame
    unfold Scalar.sum
    induction pairs with
    | nil => exact Scalar.lit_zero
    | cons pair rest ih =>
      rw [List.map_cons, List.foldl_cons, hsame pair List.mem_cons_self, sub_self, Scalar.abs_real, abs_zero,
        add_zero]
      exact ih fun other hother => hsame other (List.mem_cons_of_mem _ hother)
  refine hsum _ fun pair hpair => ?_
  obtain ⟨i, hi⟩ := List.mem_iff_getElem?.mp (List.mem_of_mem_drop hpair)
  obtain ⟨hnow, hearlier⟩ := List.getElem?_zip_eq_some.mp hi
  exact Option.some.inj (hnow.symm.trans hearlier)

theorem settled_self (spec : CurveSpec κ ℝ) (haccuracy : 0 < spec.config.accuracy) (data : List ℝ) :
    spec.Settled data data := by
  refine .inr ?_
  rw [improvement_self, Scalar.ofNat_real]
  positivity

theorem settle_second {before first : List ℝ} (hfirst : spec.pass read frame 0 before = .ok first)
    (hsecond : spec.pass read frame 1 first = .ok first) (haccuracy : 0 < spec.config.accuracy)
    (more : Nat) : spec.settle read frame (more + 2) 0 before = .ok first := by
  have hstop : (spec.singlePass || decide (improvement first first ≤
      Scalar.ofNat spec.instruments.length * spec.config.accuracy)) = true := by
    rw [Bool.or_eq_true, decide_eq_true_iff]
    exact settled_self spec haccuracy first
  rw [settle_succ hfirst, settle_succ hsecond, if_pos hstop]
  exact ite_self _

end real

end CurveSpec

end RateCurves
