import RateCurves.Bootstrap.Solve

/-!
# What a bootstrap reads

A bootstrap reads the quotes that its instruments register with, and no others (`bootstrap_congr`). It
reads the evaluation date only to find the reference date (`bootstrap_resolved`), so only if that floats
(`bootstrap_fixed`). An implied quote reads nothing but the convexity adjustment of a futures contract
(`Instrument.impliedQuote_reads`).
-/

namespace RateCurves

variable {κ α : Type} [Scalar α]

namespace Instrument

/-- The quotes that go into an implied quote. -/
def adjustments : Instrument κ α → List κ
  | .futures _ convexity _ => convexity.target?.toList
  | _ => []

variable {i : Instrument κ α} {read read' : κ → Option α}

theorem adjustments_subset (i : Instrument κ α) : i.adjustments ⊆ i.sources := by
  cases i with
  | deposit rate loan | fra rate loan | swap rate schedule => exact List.nil_subset _
  | futures price convexity loan => exact List.subset_append_left ..

theorem impliedQuote_reads (h : ∀ source ∈ i.adjustments, read source = read' source) :
    i.impliedQuote read = i.impliedQuote read' := by
  funext curve
  cases i with
  | deposit rate loan | fra rate loan | swap rate schedule => rfl
  | futures price convexity loan =>
    have hconvexity : convexityAdjustment read convexity loan.stop =
        convexityAdjustment read' convexity loan.stop := by
      unfold convexityAdjustment
      cases htarget : convexity.target? with
      | none => rfl
      | some source =>
        have := h source (by simp [adjustments, htarget])
        simp only [this]
    simp only [impliedQuote, hconvexity]

variable (h : ∀ source ∈ i.sources, read source = read' source)
include h

theorem referenceQuote_congr : i.referenceQuote read = i.referenceQuote read' := by
  have hquote : i.quote.target?.bind read = i.quote.target?.bind read' := by
    cases htarget : i.quote.target? with
    | none => rfl
    | some source =>
      apply h source
      cases i with
      | deposit rate loan => simpa [sources] using htarget
      | fra rate loan => simpa [sources] using htarget
      | swap rate schedule => simpa [sources] using htarget
      | futures price convexity loan =>
        simp only [sources, List.mem_append, Option.mem_toList]
        exact .inr htarget
  unfold referenceQuote
  rw [hquote]

theorem quoteError_reads (curve : CurveView α) : i.quoteError read curve = i.quoteError read' curve := by
  unfold quoteError
  rw [referenceQuote_congr h, impliedQuote_reads fun source hsource => h source (i.adjustments_subset hsource)]

end Instrument

namespace CurveSpec

/-- The quotes that the instruments depend on. -/
def sources (spec : CurveSpec κ α) : List κ := spec.instruments.flatMap (·.sources)

variable {spec : CurveSpec κ α} {read read' : κ → Option α} {frame : Frame α}

theorem checkInstruments_congr (h : ∀ source ∈ spec.sources, read source = read' source) (reference : Date) :
    spec.checkInstruments read reference = spec.checkInstruments read' reference := by
  unfold checkInstruments
  unfold sources at h
  revert h
  induction spec.instruments with
  | nil => exact fun _ => rfl
  | cons instrument rest ih =>
    intro h
    rw [List.flatMap_cons, List.forall_mem_append] at h
    rw [List.forM, List.forM, Instrument.referenceQuote_congr h.1, ih h.2]

theorem solveFrom_congr {instruments : List (Instrument κ α)} {iteration i : Nat} {data : List α}
    (h : ∀ source ∈ instruments.flatMap (·.sources), read source = read' source) :
    spec.solveFrom read frame iteration i instruments data =
      spec.solveFrom read' frame iteration i instruments data := by
  induction instruments generalizing i data with
  | nil => rfl
  | cons instrument rest ih =>
    rw [List.flatMap_cons, List.forall_mem_append] at h
    have hobjective : spec.objective read frame iteration i instrument =
        spec.objective read' frame iteration i instrument := by
      funext x data
      unfold objective quoteErrorAt
      simp only [Instrument.quoteError_reads h.1]
    have hsegment : spec.solveSegment read frame iteration i instrument =
        spec.solveSegment read' frame iteration i instrument := by
      unfold solveSegment
      rw [hobjective]
    rw [solveFrom, solveFrom, hsegment]
    rcases spec.solveSegment read' frame iteration i instrument data with ⟨e | root, data⟩
    · rfl
    · exact ih h.2

theorem settle_congr (h : ∀ source ∈ spec.sources, read source = read' source) {more iteration : Nat}
    {data : List α} : spec.settle read frame more iteration data = spec.settle read' frame more iteration data := by
  induction more generalizing iteration data with
  | zero => rfl
  | succ more ih =>
    have hpass : spec.pass read frame iteration data = spec.pass read' frame iteration data :=
      solveFrom_congr h
    rw [settle, settle, hpass]
    simp only [ih]

/-- A bootstrap depends on the quotes of its instruments alone. -/
theorem bootstrap_congr (h : ∀ source ∈ spec.sources, read source = read' source) (today : Option Date) :
    spec.bootstrap read today = spec.bootstrap read' today := by
  unfold bootstrap
  simp only [checkInstruments_congr h, settle_congr h]

/-! ## The reference date -/

section reference

variable (spec) (reference : Reference)

theorem solveFrom_reference {instruments : List (Instrument κ α)} {iteration i : Nat} {data : List α} :
    { spec with reference }.solveFrom read frame iteration i instruments data =
      spec.solveFrom read frame iteration i instruments data := by
  induction instruments generalizing i data with
  | nil => rfl
  | cons instrument rest ih =>
    have hsegment : { spec with reference }.solveSegment read frame iteration i instrument data =
        spec.solveSegment read frame iteration i instrument data := rfl
    rw [solveFrom, solveFrom, hsegment]
    rcases spec.solveSegment read frame iteration i instrument data with ⟨e | root, data⟩
    · rfl
    · exact ih

theorem settle_reference {more iteration : Nat} {data : List α} :
    { spec with reference }.settle read frame more iteration data =
      spec.settle read frame more iteration data := by
  induction more generalizing iteration data with
  | zero => rfl
  | succ more ih =>
    have hpass : { spec with reference }.pass read frame iteration data = spec.pass read frame iteration data :=
      solveFrom_reference spec reference
    rw [settle, settle, hpass]
    simp only [ih]
    rfl

variable {reference}

/-- Of its reference a bootstrap only sees the date that it resolves to. -/
theorem bootstrap_resolved {today today' : Option Date}
    (h : reference.resolve today = (spec.reference.resolve today' : Outcome α Date)) :
    { spec with reference }.bootstrap read today = spec.bootstrap read today' := by
  unfold bootstrap
  simp only [h, settle_reference]
  rfl

end reference

theorem bootstrap_fixed {date : Date} (h : spec.reference = .fixed date) (today today' : Option Date) :
    spec.bootstrap read today = spec.bootstrap read today' := by
  refine bootstrap_resolved spec ?_
  rw [h]
  rfl

end CurveSpec

end RateCurves
