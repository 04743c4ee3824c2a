import RateCurves.Proofs.Calendar.Order
import RateCurves.Instrument.Basic

/-!
# What instruments look at

No date of an instrument lies behind its maturity, so its implied quote and its error depend on the
discount factors of a curve up to there (`Instrument.quoteError_congr`).
-/

namespace RateCurves

variable {κ α : Type} [Scalar α]

/-- The dates of a schedule are not behind its last one. -/
theorem Accrues.le_last {start : Date} {coupons : List (Date × α)} (h : Accrues start coupons) :
    ∀ date ∈ start :: coupons.map (·.1), date ≤ (coupons.map (·.1)).getLastD start := by
  induction h with
  | nil start =>
    intro date hdate
    rw [List.mem_singleton.mp hdate]
    exact le_refl start
  | @cons start date tau rest later positive accrues ih =>
    intro d hd
    rw [List.map_cons, List.getLastD_cons]
    rcases List.mem_cons.mp hd with rfl | hd
    · exact later.le.trans (ih date List.mem_cons_self)
    · exact ih d hd

theorem Accrues.first_le {start : Date} {coupons : List (Date × α)} (h : Accrues start coupons) :
    ∀ date ∈ start :: coupons.map (·.1), start ≤ date := by
  induction h with
  | nil start =>
    intro date hdate
    rw [List.mem_singleton.mp hdate]
  | @cons start date tau rest later positive accrues ih =>
    intro d hd
    rw [List.map_cons] at hd
    rcases List.mem_cons.mp hd with rfl | hd
    · exact le_rfl
    · exact later.le.trans (ih d hd)

/-- Two curves have the same discount factors on the dates up to `last`. -/
def CurveView.SameUntil (last : Date) (c d : CurveView α) : Prop :=
  ∀ date ≤ last, c.discountOn date = d.discountOn date

variable {c d : CurveView α}

theorem Loan.forward_congr (loan : Loan α) (h : c.SameUntil loan.stop d) :
    loan.forward c = loan.forward d := by
  unfold Loan.forward
  rw [h loan.start loan.ordered.le, h loan.stop (le_refl _)]

namespace Schedule

variable (s : Schedule α)

theorem start_le_stop : s.start ≤ s.stop := s.accrues.le_last s.start List.mem_cons_self

theorem annuity_congr (h : c.SameUntil s.stop d) : s.annuity c = s.annuity d := by
  have hdates : ∀ coupon ∈ s.coupons, c.discountOn coupon.1 = d.discountOn coupon.1 := fun coupon hmem =>
    h _ (s.accrues.le_last _ (List.mem_cons_of_mem _ (List.mem_map_of_mem hmem)))
  unfold annuity
  generalize (0.0 : α) = sum
  revert hdates
  induction s.coupons generalizing sum with
  | nil => exact fun _ => rfl
  | cons coupon rest ih =>
    intro hdates
    obtain ⟨date, tau⟩ := coupon
    have hdate : c.discountOn date = d.discountOn date := hdates (date, tau) List.mem_cons_self
    simp only [List.foldlM_cons, hdate]
    congr 1
    funext sum
    exact ih sum fun other hmem => hdates other (List.mem_cons_of_mem _ hmem)

theorem parRate_congr (h : c.SameUntil s.stop d) : s.parRate c = s.parRate d := by
  unfold parRate
  rw [s.annuity_congr h, h s.start s.start_le_stop, h s.stop (le_refl _)]

end Schedule

namespace Instrument

variable (read : κ → Option α) (i : Instrument κ α)

theorem impliedQuote_congr (h : c.SameUntil i.maturity d) :
    i.impliedQuote read c = i.impliedQuote read d := by
  cases i with
  | deposit rate loan => exact loan.forward_congr h
  | fra rate loan => exact loan.forward_congr h
  | futures price convexity loan =>
    simp only [impliedQuote, loan.forward_congr h]
  | swap rate schedule => exact schedule.parRate_congr h

/-- The error of an instrument depends on the discount factors up to its maturity. -/
theorem quoteError_congr (h : c.SameUntil i.maturity d) : i.quoteError read c = i.quoteError read d := by
  unfold quoteError
  rw [i.impliedQuote_congr read h]

end Instrument

end RateCurves
