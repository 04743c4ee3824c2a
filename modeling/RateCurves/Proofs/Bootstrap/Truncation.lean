import RateCurves.Proofs.Bootstrap.Repricing

/-!
# Truncated curves

A curve of a local scheme that ends at one of its nodes is the whole curve up to there
(`NodeCurve.fit_truncated`). So it makes no difference to the value of an objective whether the curve it
looks at ends at the node being solved, as in the first pass, or goes on over nodes with any values, as in
the later ones (`CurveSpec.objective_agree`).
-/

namespace RateCurves

open Scalar

namespace NodeCurve

variable {kind : CurveKind} {dayCount : DayCount} {scheme : Scheme} {dates : List Date}
  {times data : List ℝ}

/-! ## Times -/

end NodeCurve

namespace CurveSpec

variable {κ : Type} {spec : CurveSpec κ ℝ} {read : κ → Option ℝ} {reference : Date} {frame : Frame ℝ}

/-- An objective that has a value keeps it in every pass and on all nodes that agree up to its own, if the
later ones that it looks at are such that a curve can be fitted. -/
theorem objective_agree (hlocal : spec.scheme.isGlobal = false) (hframe : spec.Framed reference frame)
    {i : Nat} {instrument : Instrument κ ℝ} (hi : spec.instruments[i]? = some instrument)
    {data data' : List ℝ} {x : ℝ} (hlength : data'.length = spec.instruments.length + 1)
    (hsame : ∀ j ≤ i + 1, (spec.kind.place data x (i + 1))[j]? = (spec.kind.place data' x (i + 1))[j]?)
    {iteration iteration' : Nat} {v : ℝ}
    (hlater : spec.scheme = .logLinear → ∀ (j : Nat), i + 1 < j → j < (spec.stage iteration' (i + 1)).2 →
      ∀ y, data'[j]? = some y → 0 < y)
    (h : (spec.objective read frame iteration (i + 1) instrument x data).1 = .ok v) :
    (spec.objective read frame iteration' (i + 1) instrument x data').1 = .ok v := by
  have hbound := (List.getElem?_eq_some_iff.mp hi).1
  obtain ⟨hscheme, hspan⟩ := stage_local hlocal iteration hbound
  obtain ⟨hscheme', hspan'⟩ := stage_local hlocal iteration' hbound
  have htake {β : Type} (xs : List β) (k j : Nat) (hk : i + 2 ≤ k) (hj : j ≤ i + 1) :
      (xs.take k)[j]? = xs[j]? := List.getElem?_take_of_lt (by omega)
  rw [objective_apply] at h ⊢
  obtain ⟨c, hc, herror⟩ := Outcome.bind_ok.mp h
  unfold partialCurve at hc ⊢
  rw [hscheme] at hc
  rw [hscheme']
  generalize (spec.stage iteration (i + 1)).2 = span at hc hspan
  generalize (spec.stage iteration' (i + 1)).2 = span' at hspan' hlater ⊢
  obtain ⟨d, hd⟩ : ∃ d, NodeCurve.fit spec.kind spec.dayCount spec.scheme (frame.dates.take span')
      (frame.times.take span') ((spec.kind.place data' x (i + 1)).take span') = .ok d := by
    apply NodeCurve.fit_exists
    · rw [List.length_take, hframe.times_length]
      omega
    · exact hframe.times_lt.sublist (List.take_sublist ..)
    · rw [List.length_take, List.length_take, CurveKind.place_length, hlength, hframe.times_length]
    · intro hlog y hy
      obtain ⟨j, hj⟩ := List.mem_iff_getElem?.mp hy
      have hin : j < span' := by
        have := (List.getElem?_eq_some_iff.mp hj).1
        rw [List.length_take] at this
        omega
      rw [List.getElem?_take_of_lt hin] at hj
      rcases Nat.lt_or_ge (i + 1) j with hafter | hbefore
      · rw [CurveKind.place_after hafter] at hj
        exact hlater hlog j hafter hin y hj
      · -- up to its own node the objective has already found a curve with these values
        rw [hlog] at hc
        refine LogLinear.accepts_iff.mp (NodeCurve.fit_accepts hc) y (List.mem_of_getElem? (i := j) ?_)
        rw [htake _ _ _ hspan hbefore, hsame j hbefore, hj]
  have agree : NodeCurve.AgreeUntil (spec.dayCount.yearFraction reference instrument.maturity) c d := by
    refine NodeCurve.fit_agree hlocal hc hd ?_ (Nat.succ_pos i) ?_ (fun j hj => ?_) fun j hj => ?_
    · rw [hframe.dates_take (by omega), hframe.dates_take (by omega)]
    · exact hframe.time_take hi hspan
    · rw [htake _ _ _ hspan hj, htake _ _ _ hspan' hj]
    · rw [htake _ _ _ hspan hj, htake _ _ _ hspan' hj, hsame j hj]
  refine Outcome.bind_ok.mpr ⟨d, hd, ?_⟩
  rw [← herror]
  refine (instrument.quoteError_congr read fun date hdate => ?_).symm
  refine agree.discountOn ?_ (.inl rfl) (.inl rfl)
  obtain ⟨_, _, -, -, rfl⟩ := NodeCurve.fit_ok hc
  rw [hframe.dates_take (by omega)]
  exact spec.dayCount.yearFraction_le reference hdate

end CurveSpec

namespace TwoDeposits

open OneYear (start stop)
open OneDeposit (deposit)

end TwoDeposits

end RateCurves
