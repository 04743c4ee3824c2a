import RateCurves.Proofs.RootSearch.History
import RateCurves.Bootstrap.Solve

/-!
# What a bootstrap evaluates

`CurveSpec.observe` is a bootstrap that also keeps the history of all its objectives, and
`CurveSpec.evaluations` is that history. The history makes no difference to the bootstrap: searches,
passes and the whole run give what they give without it (`observe_answer`). It only grows, so the search
for the first node is at its beginning (`evaluations_first`).
-/

namespace RateCurves

open Scalar Trial

variable {κ α β γ : Type}

/-- The history only grows. -/
def Trial.Grows (t : Trial (History α) α β) : Prop := ∀ log, log <:+ (t log).2

theorem Trial.Grows.suffix_bind {t : Trial (History α) α β} {next : β → Trial (History α) α γ}
    {log early : History α} (rest : ∀ v, Grows (next v)) (h : early <:+ (t log).2) :
    early <:+ ((t >>= next) log).2 := by
  rw [bind_apply]
  revert h
  rcases t log with ⟨e | v, log'⟩
  · exact id
  · exact fun h => h.trans (rest v log')

variable [Scalar α]

namespace CurveSpec

section definitions

variable (spec : CurveSpec κ α) (read : κ → Option α) (frame : Frame α)

/-- The search for one node, which also keeps the history of its objective. -/
def observeSegment (iteration i : Nat) (instrument : Instrument κ α) :
    Trial (List α × History α) α α := fun (data, log) =>
  match spec.searchRange frame iteration i data with
  | .error e => (.error e, data, log)
  | .ok range =>
    spec.solver.solve (spec.objective read frame iteration i instrument).logged spec.config.accuracy
      range.guess range.low range.high (data, log)

def observeFrom (iteration : Nat) :
    (i : Nat) → List (Instrument κ α) → (data : List α) → Trial (History α) α (List α)
  | _, [], data => pure data
  | i, instrument :: rest, data => fun log =>
    match spec.observeSegment read frame iteration i instrument (data, log) with
    | (.error cause, _, log) => (.error (.segmentUnsolved instrument.maturity i (iteration + 1) cause), log)
    | (.ok value, data, log) => observeFrom iteration (i + 1) rest (spec.kind.place data value i) log

def observeSettle : (more iteration : Nat) → (data : List α) → Trial (History α) α (List α)
  | 0, _, _ => throw (.notConverged spec.config.maxIterations)
  | more + 1, iteration, data => do
    let next ← spec.observeFrom read frame iteration 1 spec.instruments data
    if spec.singlePass ||
        improvement data next ≤ ofNat spec.instruments.length * spec.config.accuracy then
      return next
    else observeSettle more (iteration + 1) next

/-- The bootstrap, which also keeps the history of its objectives. -/
def observe (evaluationDate : Option Date) : Trial (History α) α (NodeCurve α) := do
  let reference ← ofOutcome (spec.reference.resolve evaluationDate)
  ofOutcome (spec.checkInstruments read reference)
  let frame ← ofOutcome (spec.frame reference)
  let start := List.replicate (spec.instruments.length + 1) (spec.kind.initialValue : α)
  let data ← spec.observeSettle read frame spec.config.maxIterations 0 start
  ofOutcome (NodeCurve.fit spec.kind spec.dayCount spec.scheme frame.dates frame.times data)

/-- All that the objectives of a bootstrap are asked for, the latest first. -/
def evaluations (evaluationDate : Option Date) : History α := (spec.observe read evaluationDate []).2

end definitions

/-! ## What is observed -/

section answers

variable (spec : CurveSpec κ α) (read : κ → Option α) (frame : Frame α)

theorem observeSegment_answer (iteration i : Nat) (instrument : Instrument κ α) (data : List α)
    (log : History α) :
    (spec.observeSegment read frame iteration i instrument (data, log)).1 =
        (spec.solveSegment read frame iteration i instrument data).1 ∧
      (spec.observeSegment read frame iteration i instrument (data, log)).2.1 =
        (spec.solveSegment read frame iteration i instrument data).2 := by
  have hsegment : spec.solveSegment read frame iteration i instrument data =
      (ofOutcome (spec.searchRange frame iteration i data) >>= fun range =>
        spec.solver.solve (spec.objective read frame iteration i instrument) spec.config.accuracy
          range.guess range.low range.high) data := rfl
  rw [observeSegment, hsegment, bind_apply, ofOutcome_apply]
  cases spec.searchRange frame iteration i data with
  | error e => exact ⟨rfl, rfl⟩
  | ok range => exact spec.solver.solve_logged _ _ _ _ _ data log

theorem observeFrom_answer (iteration i : Nat) (instruments : List (Instrument κ α)) (data : List α)
    (log : History α) : (spec.observeFrom read frame iteration i instruments data log).1 =
      spec.solveFrom read frame iteration i instruments data := by
  induction instruments generalizing i data log with
  | nil => rfl
  | cons instrument rest ih =>
    obtain ⟨hanswer, hdata⟩ := spec.observeSegment_answer read frame iteration i instrument data log
    rw [observeFrom, solveFrom]
    dsimp only
    revert hanswer hdata
    rcases spec.solveSegment read frame iteration i instrument data with ⟨_, _⟩
    rcases spec.observeSegment read frame iteration i instrument (data, log) with ⟨answer, after, log'⟩
    rintro rfl rfl
    cases answer with
    | error cause => rfl
    | ok value => exact ih (i + 1) (spec.kind.place after value i) log'

theorem observeSettle_answer (more iteration : Nat) (data : List α) (log : History α) :
    (spec.observeSettle read frame more iteration data log).1 =
      spec.settle read frame more iteration data := by
  induction more generalizing iteration data log with
  | zero => rfl
  | succ more ih =>
    refine bind_answer (spec.observeFrom_answer read frame iteration 1 spec.instruments data log) fun next log' => ?_
    split
    · rfl
    · exact ih (iteration + 1) next log'

/-- The history makes no difference to a bootstrap. -/
theorem observe_answer (today : Option Date) (log : History α) :
    (spec.observe read today log).1 = spec.bootstrap read today := by
  refine bind_answer rfl fun reference log => bind_answer rfl fun _ log => bind_answer rfl fun frame log => ?_
  exact bind_answer (spec.observeSettle_answer read frame _ _ _ log) fun data log => rfl

end answers

/-! ## The beginning of the history -/

section grows

variable (spec : CurveSpec κ α) (read : κ → Option α) (frame : Frame α)

theorem observeSegment_grows (iteration i : Nat) (instrument : Instrument κ α) (data : List α)
    (log : History α) : log <:+ (spec.observeSegment read frame iteration i instrument (data, log)).2.2 := by
  rw [observeSegment]
  cases spec.searchRange frame iteration i data with
  | error e => exact List.suffix_refl log
  | ok range =>
    refine Solver.solve_keeps (I := fun s : List α × History α => log <:+ s.2) (fun x s hs => ?_) _ _ _ _ _
      (List.suffix_refl log)
    exact hs.trans (List.suffix_cons _ s.2)

theorem observeFrom_grows (iteration i : Nat) (instruments : List (Instrument κ α)) (data : List α) :
    Grows (spec.observeFrom read frame iteration i instruments data) := by
  induction instruments generalizing i data with
  | nil => exact List.suffix_refl
  | cons instrument rest ih =>
    intro log
    have hsegment := spec.observeSegment_grows read frame iteration i instrument data log
    rw [observeFrom]
    dsimp only
    revert hsegment
    rcases spec.observeSegment read frame iteration i instrument (data, log) with ⟨cause | value, after, log'⟩
    · exact id
    · exact fun h => h.trans (ih (i + 1) (spec.kind.place after value i) log')

theorem observeSettle_grows (more iteration : Nat) (data : List α) :
    Grows (spec.observeSettle read frame more iteration data) := by
  induction more generalizing iteration data with
  | zero => exact List.suffix_refl
  | succ more ih =>
    intro log
    refine Grows.suffix_bind (fun next => ?_) (spec.observeFrom_grows read frame iteration 1 spec.instruments data log)
    split
    · exact List.suffix_refl
    · exact ih (iteration + 1) next

end grows

variable {spec : CurveSpec κ α} {read : κ → Option α} {frame : Frame α}

/-- Once the preparations are made, a bootstrap begins with the search for the first node. -/
theorem evaluations_first {reference : Date} {today : Option Date} {first : Instrument κ α}
    {rest : List (Instrument κ α)}
    (hreference : spec.reference.resolve today = (.ok reference : Outcome α Date))
    (hchecked : spec.checkInstruments read reference = .ok ()) (hframe : spec.frame reference = .ok frame)
    (hsome : spec.config.maxIterations ≠ 0) (hfirst : spec.instruments = first :: rest) :
    (spec.observeSegment read frame 0 1 first
        (List.replicate (spec.instruments.length + 1) spec.kind.initialValue, [])).2.2 <:+
      spec.evaluations read today := by
  obtain ⟨more, hmore⟩ := Nat.exists_eq_succ_of_ne_zero hsome
  have hfrom (data : List α) : (spec.observeSegment read frame 0 1 first (data, [])).2.2 <:+
      (spec.observeFrom read frame 0 1 spec.instruments data []).2 := by
    rw [hfirst, observeFrom]
    dsimp only
    rcases spec.observeSegment read frame 0 1 first (data, []) with ⟨cause | value, after, log⟩
    · exact List.suffix_refl log
    · exact spec.observeFrom_grows read frame 0 2 rest _ log
  have hsettle (data : List α) : (spec.observeSegment read frame 0 1 first (data, [])).2.2 <:+
      (spec.observeSettle read frame spec.config.maxIterations 0 data []).2 := by
    rw [hmore]
    refine Grows.suffix_bind (fun next => ?_) (hfrom data)
    split
    · exact List.suffix_refl
    · exact spec.observeSettle_grows read frame more 1 next
  have hobserve : spec.observe read today [] =
      (spec.observeSettle read frame spec.config.maxIterations 0
        (List.replicate (spec.instruments.length + 1) spec.kind.initialValue) >>= fun data =>
          ofOutcome (NodeCurve.fit spec.kind spec.dayCount spec.scheme frame.dates frame.times data)) [] := by
    simp only [observe, bind_apply, ofOutcome_apply, hreference, hchecked, hframe]
  rw [evaluations, hobserve]
  exact Grows.suffix_bind (fun _ => List.suffix_refl) (hsettle _)

end CurveSpec

end RateCurves
