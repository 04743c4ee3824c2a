import RateCurves.Proofs.Curve.Agree
import RateCurves.Proofs.Scalar.Double

/-!
# Curves give back their values

A curve made from values at dates gives every value back when it is asked for it at its date or its time
(`NodeCurve.ofValues_exact`). Nothing is computed on the way that could round: the times of the dates are
computed as they were when the curve was made, no node is before the first time or past the last one
(`NodeCurve.checkTime_node`), at a time up to the last node the kind looks up the interpolation, and there
every scheme has the ordinate itself (`NodeCurve.fit_node`). So this holds of doubles as they are.
-/

namespace RateCurves

open Scalar

namespace NodeCurve

section ordered

variable {α : Type} [Scalar α] {kind : CurveKind} {dayCount : DayCount} {scheme : Scheme}
  {dates : List Date} {values : List α} {c : NodeCurve α}

theorem ofValues_ok (h : ofValues kind dayCount scheme dates values = .ok c) :
    dates.length = values.length ∧
      fit kind dayCount scheme dates (timesOf dayCount dates) values = .ok c := by
  obtain ⟨⟨⟩, hnodes, h⟩ := Outcome.bind_ok.mp h
  obtain ⟨⟨⟩, -, hnodes⟩ := Outcome.bind_ok.mp hnodes
  obtain ⟨⟨⟩, hlengths, -⟩ := Outcome.bind_ok.mp hnodes
  refine ⟨of_decide_eq_true (Outcome.require_ok.mp hlengths), ?_⟩
  split at h
  · obtain ⟨⟨⟩, -, h⟩ := Outcome.bind_ok.mp h
    exact h
  · exact h

variable [OrderedScalar α]

theorem fit_time_le {times : List α} (h : fit kind dayCount scheme dates times values = .ok c) {i k : Nat}
    (hik : i ≤ k) {s t : α} (hs : times[i]? = some s) (ht : times[k]? = some t) : s ≤ t := by
  obtain ⟨nodes, f, hnodes, hf, rfl⟩ := fit_ok h
  have hk : k < nodes.size := by
    rw [Nodes.ofLists_size hnodes]
    exact (List.getElem?_eq_some_iff.mp ht).1
  rw [← Nodes.ofLists_x hnodes hs, ← Nodes.ofLists_x hnodes ht]
  exact nodes.axis.value_le hik hk

theorem checkTime_node (h : fit kind dayCount scheme dates (timesOf dayCount dates) values = .ok c)
    (hstart : 0.0 ≤ (dayCount.yearFraction (dates.headD .first) (dates.headD .first) : α)) {k : Nat} {t : α}
    (ht : (timesOf dayCount dates : List α)[k]? = some t) : (c.view false).checkTime t false = .ok () := by
  have hk : k < dates.length := by
    have hbound := (List.getElem?_eq_some_iff.mp ht).1
    rwa [timesOf_eq, List.length_map] at hbound
  have time_get {i : Nat} (hi : i < dates.length) : (timesOf dayCount dates : List α)[i]? =
      some (dayCount.yearFraction (dates.headD .first) dates[i]) := by
    rw [timesOf_eq, List.getElem?_map, List.getElem?_eq_getElem hi, Option.map_some]
  have hfirst := fit_time_le h (Nat.zero_le k) (time_get (Nat.zero_lt_of_lt hk)) ht
  have hlast := fit_time_le h (Nat.le_sub_one_of_lt hk) ht (time_get (Nat.sub_one_lt_of_lt hk))
  obtain ⟨nodes, f, -, -, rfl⟩ := fit_ok h
  have hhead : dates[0] = dates.headD .first := by
    cases dates with
    | nil => cases hk
    | cons reference rest => rfl
  have hend : dates[dates.length - 1] = dates.getLastD .first := by
    rw [List.getLastD_eq_getLast?, List.getLast?_eq_getElem?, List.getElem?_eq_getElem (by omega),
      Option.getD_some]
  rw [hhead] at hfirst
  rw [hend] at hlast
  exact CurveView.checkTime_passes (CurveView.timeOf_eq rfl _)
    (OrderedScalar.not_lt_of_le (OrderedScalar.le_trans hstart hfirst))
    (.inr (OrderedScalar.not_lt_of_le hlast))

/-- A fitted curve gives back the value of a node when it is asked for what its values are. -/
theorem fit_answers (h : fit kind dayCount scheme dates (timesOf dayCount dates) values = .ok c)
    (hstart : 0.0 ≤ (dayCount.yearFraction (dates.headD .first) (dates.headD .first) : α)) {k : Nat}
    {date : Date} {t v : α} (hdate : dates[k]? = some date)
    (ht : (timesOf dayCount dates : List α)[k]? = some t) (hv : values[k]? = some v) :
    (kind = .discount → (c.view false).discountOn date = .ok v) ∧
    (kind = .zeroYield → (c.view false).zeroRate t false = .ok v) ∧
    (kind = .forwardRate → (c.view false).forwardRate t t false = .ok v) := by
  have hself : t ≤ t := fit_time_le h (le_refl k) ht ht
  have hpass := checkTime_node h hstart ht
  obtain ⟨hhigh, hvalue⟩ := fit_node h ht hv
  obtain ⟨nodes, f, -, -, rfl⟩ := fit_ok h
  refine ⟨?_, ?_, ?_⟩
  · rintro rfl
    rw [timesOf_eq, List.getElem?_map, hdate] at ht
    obtain rfl := Option.some.inj ht
    rw [CurveView.discountOn, CurveView.timeOf_eq rfl]
    exact (CurveView.discount_eq hpass).trans (congrArg _ ((if_pos hhigh).trans hvalue))
  · rintro rfl
    rw [CurveView.zeroRate_eq hpass]
    exact congrArg _ ((if_pos hhigh).trans hvalue)
  · rintro rfl
    rw [CurveView.forwardRate_eq hself (OrderedScalar.beq_self hself) hpass]
    exact congrArg _ ((if_pos hhigh).trans hvalue)

end ordered

/-- **Curves give back their values.** If a curve can be made from values at dates, whatever their kind,
the scheme and the day count, then it gives every value back exactly, last node included, without
extrapolation: a discount factor at its date, a zero yield at its time, and a forward from its time to the
same time. -/
theorem ofValues_exact {kind : CurveKind} {dayCount : DayCount} {scheme : Scheme} {dates : List Date}
    {values : List Float} {c : NodeCurve Float}
    (made : ofValues kind dayCount scheme dates values = .ok c) :
    c.dates = dates ∧ c.times = timesOf dayCount dates ∧ c.data = values ∧
      dates.length = values.length ∧ c.times.length = values.length ∧
      ∀ (i : Nat) (date : Date) (t v : Float), dates[i]? = some date →
        c.times[i]? = some t → values[i]? = some v →
        (kind = .discount → (c.view false).discountOn date = .ok v) ∧
        (kind = .zeroYield → (c.view false).zeroRate t false = .ok v) ∧
        (kind = .forwardRate → (c.view false).forwardRate t t false = .ok v) := by
  obtain ⟨hlength, fitted⟩ := ofValues_ok made
  have hstart : (0.0 : Float) ≤ dayCount.yearFraction (dates.headD .first) (dates.headD .first) := by
    rw [DayCount.yearFraction, DayCount.days_self]
    cases dayCount <;> decide
  have htimes : c.dates = dates ∧ c.times = timesOf dayCount dates ∧ c.data = values := by
    obtain ⟨nodes, f, -, -, rfl⟩ := fit_ok fitted
    exact ⟨rfl, rfl, rfl⟩
  refine ⟨htimes.1, htimes.2.1, htimes.2.2, hlength, ?_, ?_⟩
  · rw [htimes.2.1, timesOf_eq, List.length_map, hlength]
  · intro i date t v hdate ht hv
    rw [htimes.2.1] at ht
    exact fit_answers fitted hstart hdate ht hv

/-- New Year's Day in three years. -/
def newYears : List Date := [2023, 2024, 2025].filterMap (Date.ofParts? · 1 1)

/-- Discount factors in a log-linear curve go through no logarithm on their dates. -/
theorem ofValues_exact_newYears : ∃ c : NodeCurve Float,
    ofValues .discount .thirty360 .logLinear newYears [1.0, 0.95, 0.9] = .ok c ∧
      (c.view false).discountOn { year := 2024, month := 1, day := 1 } = .ok 0.95 ∧
      (c.view false).discountOn { year := 2025, month := 1, day := 1 } = .ok 0.9 := by
  obtain ⟨c, made⟩ : ∃ c : NodeCurve Float,
    ofValues .discount .thirty360 .logLinear newYears [1.0, 0.95, 0.9] = .ok c := ⟨_, rfl⟩
  obtain ⟨-, htimes, -, -, -, answers⟩ := ofValues_exact made
  rw [htimes] at answers
  exact ⟨c, made, (answers 1 _ _ _ rfl rfl rfl).1 rfl, (answers 2 _ _ _ rfl rfl rfl).1 rfl⟩

end NodeCurve

end RateCurves
