import RateCurves.Proofs.Calendar.Order
import RateCurves.Proofs.Failure.Outcome
import RateCurves.Bootstrap.Solve

/-!
# Node dates and times

The times of a frame increase strictly, and a time that is later belongs to a later date, whatever the
day count: so do the dates (`CurveSpec.frame_ok`).
-/

namespace RateCurves.CurveSpec

section scalar

variable {κ α : Type} [Scalar α] {spec : CurveSpec κ α} {reference : Date}

theorem stalled_none {time : Date → α} {dates : List Date} :
    stalled? (dates.zip (dates.map time)) = none ↔ dates.IsChain fun a b => time a < time b := by
  induction dates with
  | nil => exact ⟨fun _ => .nil, fun _ => rfl⟩
  | cons a rest ih =>
    cases rest with
    | nil => exact ⟨fun _ => .singleton a, fun _ => rfl⟩
    | cons b rest =>
      simp only [List.map_cons, List.zip_cons_cons, stalled?, List.isChain_cons_cons]
      split
      · rw [← ih]
        exact ⟨fun h => ⟨‹_›, h⟩, And.right⟩
      · exact ⟨nofun, fun h => absurd h.1 ‹_›⟩

theorem frame_eq {dates : List Date} (hdates : dates = reference :: spec.instruments.map (·.maturity))
    (h : stalled? (dates.zip (dates.map fun date => (spec.dayCount.yearFraction reference date : α))) =
      none) :
    spec.frame reference = .ok ⟨dates, dates.map fun date => spec.dayCount.yearFraction reference date⟩ := by
  subst hdates
  unfold CurveSpec.frame
  simp only [h]
  rfl

theorem frame_of_times {dates : List Date} {times : List α}
    (hdates : dates = reference :: spec.instruments.map (·.maturity))
    (htimes : dates.map (spec.dayCount.yearFraction reference) = times) (h : times.IsChain (· < ·)) :
    spec.frame reference = .ok ⟨dates, times⟩ := by
  subst htimes
  exact frame_eq hdates (stalled_none.mpr (List.isChain_map _ |>.mp h))

theorem frame_lists {frame : Frame α} (h : spec.frame reference = .ok frame) :
    frame.dates = reference :: spec.instruments.map (·.maturity) ∧
      frame.times = frame.dates.map (spec.dayCount.yearFraction reference) ∧
      frame.dates.IsChain fun a b =>
        (spec.dayCount.yearFraction reference a : α) < spec.dayCount.yearFraction reference b := by
  unfold CurveSpec.frame at h
  simp only at h
  split at h
  · cases h
  · rename_i hstalled
    cases h
    exact ⟨rfl, rfl, stalled_none.mp hstalled⟩

end scalar

variable {κ : Type} {spec : CurveSpec κ ℝ} {reference : Date} {frame : Frame ℝ}

/-- What holds of the dates and times of the nodes. -/
structure Framed (spec : CurveSpec κ ℝ) (reference : Date) (frame : Frame ℝ) : Prop where
  dates_eq : frame.dates = reference :: spec.instruments.map (·.maturity)
  times_eq : frame.times = frame.dates.map (spec.dayCount.yearFraction reference)
  dates_lt : frame.dates.Pairwise (· < ·)
  times_lt : frame.times.Pairwise (· < ·)

theorem frame_ok (h : spec.frame reference = .ok frame) : spec.Framed reference frame := by
  obtain ⟨hdates, htimes, hchain⟩ := frame_lists h
  refine ⟨hdates, htimes, ?_, ?_⟩
  · refine List.isChain_iff_pairwise.mp (hchain.imp fun a b hab => ?_)
    by_contra hba
    exact absurd hab (not_lt.mpr (spec.dayCount.yearFraction_le reference (not_lt.mp hba)))
  · rw [htimes]
    exact List.isChain_iff_pairwise.mp (List.isChain_map _ |>.mpr hchain)

namespace Framed

variable (h : spec.Framed reference frame)
include h

theorem dates_length : frame.dates.length = spec.instruments.length + 1 := by
  rw [h.dates_eq, List.length_cons, List.length_map]

theorem times_length : frame.times.length = spec.instruments.length + 1 := by
  rw [h.times_eq, List.length_map, h.dates_length]

theorem times_head : frame.times.head? = some 0 := by
  rw [h.times_eq, h.dates_eq, List.map_cons, List.head?_cons, DayCount.yearFraction_self]

theorem dates_take {span : Nat} (hspan : 0 < span) : (frame.dates.take span).headD .first = reference := by
  obtain ⟨n, rfl⟩ := Nat.exists_eq_succ_of_ne_zero hspan.ne'
  rw [h.dates_eq, List.take_succ_cons, List.headD_cons]

theorem times_first {span : Nat} (hspan : 0 < span) : (frame.times.take span)[0]? = some 0 := by
  rw [List.getElem?_take_of_lt hspan, ← List.head?_eq_getElem?, h.times_head]

variable {i : Nat} {instrument : Instrument κ ℝ} (hi : spec.instruments[i]? = some instrument)
include hi

theorem date_get : frame.dates[i + 1]? = some instrument.maturity := by
  rw [h.dates_eq, List.getElem?_cons_succ, List.getElem?_map, hi]
  rfl

theorem time_get :
    frame.times[i + 1]? = some (spec.dayCount.yearFraction reference instrument.maturity) := by
  rw [h.times_eq, List.getElem?_map, h.date_get hi]
  rfl

theorem time_take {span : Nat} (hspan : i + 2 ≤ span) :
    (frame.times.take span)[i + 1]? = some (spec.dayCount.yearFraction reference instrument.maturity) := by
  rw [List.getElem?_take_of_lt hspan, h.time_get hi]

theorem later : reference < instrument.maturity := by
  have hdates := h.dates_lt
  rw [h.dates_eq] at hdates
  exact (List.pairwise_cons.mp hdates).1 _ (List.mem_map_of_mem (List.mem_of_getElem? hi))

theorem maturity_le : instrument.maturity ≤ frame.dates.getLastD .first := by
  have hmem : instrument.maturity ∈ frame.dates := List.mem_of_getElem? (h.date_get hi)
  have hle : frame.dates.Pairwise (· ≤ ·) := h.dates_lt.imp le_of_lt
  rw [List.getLastD_eq_getLast?, List.getLast?_eq_some_getLast (List.ne_nil_of_mem hmem)]
  exact hle.rel_getLast hmem

end Framed

end RateCurves.CurveSpec
