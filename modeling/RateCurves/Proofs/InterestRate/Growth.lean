import Mathlib
import RateCurves.Proofs.InterestRate.RoundTrip

/-!
# Growth in time and in the rate

At a rate that is not negative the growth under either rule begins at one, never falls and has no jumps
(`Rising`). At the end of the first period both rules have added the interest of one period, so a convention
that changes from one to the other there grows in the same way (`Rising.switch`). The higher of two rates
grows more, and as an implied rate is solvent and has the growth it is implied by, the greater of two growths
implies the higher rate (`implied_lt`).
-/

namespace RateCurves.InterestRate

open Set Scalar

variable {rate rate' factor factor' f t : ℝ} {dayCount dayCount' : DayCount} {compounding : Compounding}
  {frequency : Frequency}

/-! ## Growth in time -/

/-- A growth over time that begins at one, never falls and has no jumps. -/
structure Rising (g : ℝ → ℝ) : Prop where
  start : g 0 = 1
  monotone : Monotone g
  continuous : Continuous g

theorem Rising.pos {g : ℝ → ℝ} (h : Rising g) (ht : 0 ≤ t) : 0 < g t := by
  have hle := h.monotone ht
  rw [h.start] at hle
  exact one_pos.trans_le hle

/-- Where two growths meet, one may go on as the other. -/
theorem Rising.switch {g g' : ℝ → ℝ} (h : Rising g) (h' : Rising g') {p : ℝ} (hp : 0 ≤ p)
    (hmeet : g p = g' p) : Rising fun t => if t ≤ p then g t else g' t where
  start := (if_pos hp).trans h.start
  monotone s t hst := by
    show (if s ≤ p then g s else g' s) ≤ if t ≤ p then g t else g' t
    split_ifs with hs ht ht
    · exact h.monotone hst
    · calc g s ≤ g p := h.monotone hs
        _ = g' p := hmeet
        _ ≤ g' t := h'.monotone (not_le.mp ht).le
    · exact absurd (hst.trans ht) hs
    · exact h'.monotone hst
  continuous := by
    refine h.continuous.if_le h'.continuous continuous_id continuous_const ?_
    rintro _ rfl
    exact hmeet

theorem simpleGrowth_rising (hrate : 0 ≤ rate) : Rising (simpleGrowth rate) where
  start := by simp [simpleGrowth]
  monotone s t hst := add_le_add_right (mul_le_mul_of_nonneg_left hst hrate) _
  continuous := by
    unfold simpleGrowth
    fun_prop

theorem compoundedGrowth_rising (hrate : 0 ≤ rate) (hf : 0 < f) : Rising (compoundedGrowth rate f) := by
  have heq : compoundedGrowth rate f = fun t => (1 + rate / f) ^ (f * t) := by
    funext t
    rw [compoundedGrowth, lit_one]
    rfl
  have hbase : 1 ≤ 1 + rate / f := le_add_of_nonneg_right (div_nonneg hrate hf.le)
  rw [heq]
  refine ⟨by simp, fun s t hst => ?_, ?_⟩
  · exact Real.rpow_le_rpow_of_exponent_le hbase (mul_le_mul_of_nonneg_left hst hf.le)
  · exact (Real.continuous_const_rpow (one_pos.trans_le hbase).ne').comp (continuous_const_mul f)

theorem exp_rising (hrate : 0 ≤ rate) : Rising fun t => Real.exp (rate * t) where
  start := by simp
  monotone s t hst := Real.exp_le_exp.mpr (mul_le_mul_of_nonneg_left hst hrate)
  continuous := by fun_prop

theorem rules_meet (rate : ℝ) (hf : 0 < f) : simpleGrowth rate (1.0 / f) = compoundedGrowth rate f (1.0 / f) := by
  rw [simpleGrowth, compoundedGrowth, lit_one, mul_one_div, mul_one_div_cancel hf.ne']
  exact (Real.rpow_one _).symm

/-- The growth rises whichever of the two rules is that of the first period. -/
theorem mixed_rising (hrate : 0 ≤ rate) (hf : 0 < f) :
    Rising (fun t => if t ≤ 1.0 / f then simpleGrowth rate t else compoundedGrowth rate f t) ∧
      Rising fun t => if t ≤ 1.0 / f then compoundedGrowth rate f t else simpleGrowth rate t := by
  have hperiod : (0 : ℝ) ≤ 1.0 / f := by
    rw [lit_one]
    exact (one_div_pos.mpr hf).le
  have hsimple := simpleGrowth_rising hrate
  have hcompounded := compoundedGrowth_rising hrate hf
  have hmeet := rules_meet rate hf
  exact ⟨hsimple.switch hcompounded hperiod hmeet, hcompounded.switch hsimple hperiod hmeet.symm⟩

theorem periods_exists (h : frequency.perYear?.isSome = true) : ∃ f : ℝ, periods frequency = .ok f := by
  obtain ⟨n, hn⟩ := Option.isSome_iff_exists.mp h
  exact ⟨ofNat n, by rw [periods, hn]⟩

/-- At a rate that is not negative the growth rises under every convention. -/
theorem growth_rising (dayCount : DayCount) (hrate : 0 ≤ rate)
    (regular : compounding.usesFrequency = true → frequency.perYear?.isSome = true) :
    ∃ g, (∀ t, (mk rate dayCount compounding frequency).growth t = .ok (g t)) ∧ Rising g := by
  cases compounding with
  | simple => exact ⟨_, fun _ => rfl, simpleGrowth_rising hrate⟩
  | continuous => exact ⟨_, fun _ => rfl, exp_rising hrate⟩
  | compounded =>
    obtain ⟨f, hf⟩ := periods_exists (regular rfl)
    exact ⟨_, fun _ => Outcome.bind_ok.mpr ⟨f, hf, rfl⟩, compoundedGrowth_rising hrate (periods_pos hf)⟩
  | simpleThenCompounded =>
    obtain ⟨f, hf⟩ := periods_exists (regular rfl)
    exact ⟨_, fun _ => Outcome.bind_ok.mpr ⟨f, hf, rfl⟩, (mixed_rising hrate (periods_pos hf)).1⟩
  | compoundedThenSimple =>
    obtain ⟨f, hf⟩ := periods_exists (regular rfl)
    exact ⟨_, fun _ => Outcome.bind_ok.mpr ⟨f, hf, rfl⟩, (mixed_rising hrate (periods_pos hf)).2⟩

/-! ## Growth in the rate -/

theorem compoundFactor_le (hrate : 0 ≤ rate) (hle : rate ≤ rate') (ht : 0 ≤ t)
    (regular : compounding.usesFrequency = true → frequency.perYear?.isSome = true)
    (h : (mk rate dayCount compounding frequency).compoundFactor t = .ok factor)
    (h' : (mk rate' dayCount compounding frequency).compoundFactor t = .ok factor') : factor ≤ factor' := by
  have hgrowth := (compoundFactor_ok h).2
  have hgrowth' := (compoundFactor_ok h').2
  rcases hle.eq_or_lt with rfl | hlt
  · exact (Except.ok.inj (hgrowth.symm.trans hgrowth')).le
  rcases ht.eq_or_lt with rfl | hpos
  · -- over no time both have grown to one
    obtain ⟨g, hg, rising⟩ := growth_rising dayCount hrate regular
    obtain ⟨g', hg', rising'⟩ := growth_rising dayCount (hrate.trans hle) regular
    obtain rfl := Except.ok.inj (hgrowth.symm.trans (hg 0))
    obtain rfl := Except.ok.inj (hgrowth'.symm.trans (hg' 0))
    rw [rising.start, rising'.start]
  · exact (growth_lt hpos hgrowth hgrowth' (solvent_of_nonneg hrate) hlt).le

/-! ## Implied rates -/

theorem implied_lt (ht : 0 < t) (hfactor : 0 < factor) (hlt : factor < factor')
    (regular : compounding.usesFrequency = true → frequency.perYear?.isSome = true) :
    ∃ rate rate', implied factor dayCount compounding frequency t = .ok ⟨rate, dayCount, compounding, frequency⟩ ∧
      implied factor' dayCount compounding frequency t = .ok ⟨rate', dayCount, compounding, frequency⟩ ∧
      rate < rate' := by
  have hperiods (huses : compounding.usesFrequency = true) := periods_exists (regular huses)
  obtain ⟨ir, h⟩ : ∃ ir, implied factor dayCount compounding frequency t = .ok ir :=
    implied_exists hfactor ht hperiods
  obtain ⟨ir', h'⟩ : ∃ ir, implied factor' dayCount compounding frequency t = .ok ir :=
    implied_exists (hfactor.trans hlt) ht hperiods
  obtain ⟨⟨rate, rfl⟩, -⟩ := implied_solvent h
  obtain ⟨⟨rate', rfl⟩, solvent'⟩ := implied_solvent h'
  have hgrowth := (compoundFactor_ok (implied_compoundFactor h).2).2
  have hgrowth' := (compoundFactor_ok (implied_compoundFactor h').2).2
  refine ⟨rate, rate', h, h', not_le.mp fun hle => ?_⟩
  rcases hle.eq_or_lt with rfl | hgt
  · exact hlt.ne (Except.ok.inj (hgrowth.symm.trans hgrowth'))
  · exact hlt.asymm (growth_lt ht hgrowth' hgrowth solvent' hgt)

/-- **Growth is monotone.** Let a convention have a regular frequency, if it needs one. At a rate that is not
negative it grows over every time that is not negative, and this growth is one over no time, never falls as
the time goes on, and is continuous, also where the convention changes its rule. Over the same time the higher
of two such rates does not grow less. And over a positive time every positive growth implies a rate, the
greater of two growths a higher one. -/
theorem growth_monotone (dayCount : DayCount) {compounding : Compounding} {frequency : Frequency}
    (regular : compounding.usesFrequency = true → frequency.perYear?.isSome = true) :
    (∀ r : ℝ, 0 ≤ r → ∃ g : ℝ → ℝ,
      (∀ t, 0 ≤ t → (mk r dayCount compounding frequency).compoundFactor t = .ok (g t)) ∧
        g 0 = 1 ∧ MonotoneOn g (Ici 0) ∧ ContinuousOn g (Ici 0)) ∧
    (∀ r r' t c c' : ℝ, 0 ≤ r → r ≤ r' → 0 ≤ t →
      (mk r dayCount compounding frequency).compoundFactor t = .ok c →
      (mk r' dayCount compounding frequency).compoundFactor t = .ok c' → c ≤ c') ∧
    ∀ t c c' : ℝ, 0 < t → 0 < c → c < c' → ∃ r r' : ℝ,
      implied c dayCount compounding frequency t = .ok ⟨r, dayCount, compounding, frequency⟩ ∧
      implied c' dayCount compounding frequency t = .ok ⟨r', dayCount, compounding, frequency⟩ ∧ r < r' := by
  refine ⟨fun r hr => ?_, fun r r' t c c' hr hle ht h h' => compoundFactor_le hr hle ht regular h h',
    fun t c c' ht hc hlt => implied_lt ht hc hlt regular⟩
  obtain ⟨g, hg, rising⟩ := growth_rising dayCount hr regular
  exact ⟨g, fun t ht => compoundFactor_eq ht (rising.pos ht) (hg t), rising.start, rising.monotone.monotoneOn _,
    rising.continuous.continuousOn⟩

/-- Six percent, compounded for half a year and simple afterwards: the growth goes through one half of a year
and on without a jump, and over two years a growth of one and one of six fifths imply rates in this order. -/
theorem growth_monotone_semiannual :
    (Compounding.compoundedThenSimple.usesFrequency = true → Frequency.semiannual.perYear?.isSome = true) ∧
    (∃ g : ℝ → ℝ, (∀ t, 0 ≤ t →
        (mk (6 / 100) .thirty360 .compoundedThenSimple .semiannual).compoundFactor t = .ok (g t)) ∧
      g 0 = 1 ∧ MonotoneOn g (Ici 0) ∧ ContinuousAt g (1 / 2)) ∧
    ∃ r r' : ℝ,
      implied 1 .thirty360 .compoundedThenSimple .semiannual 2 =
        .ok ⟨r, .thirty360, .compoundedThenSimple, .semiannual⟩ ∧
      implied (6 / 5) .thirty360 .compoundedThenSimple .semiannual 2 =
        .ok ⟨r', .thirty360, .compoundedThenSimple, .semiannual⟩ ∧ r < r' := by
  have regular : Compounding.compoundedThenSimple.usesFrequency = true →
    Frequency.semiannual.perYear?.isSome = true := fun _ => rfl
  obtain ⟨grows, -, implies⟩ := growth_monotone .thirty360 regular
  obtain ⟨g, hg, start, monotone, continuous⟩ := grows (6 / 100) (by norm_num)
  refine ⟨regular, ⟨g, hg, start, monotone, ?_⟩, implies 2 1 (6 / 5) two_pos one_pos (by norm_num)⟩
  exact continuous.continuousAt (Ici_mem_nhds (by norm_num))

end RateCurves.InterestRate
