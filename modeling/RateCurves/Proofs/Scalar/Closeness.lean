import RateCurves.Proofs.Scalar.Rounding

/-!
# Closeness of doubles

A time past the end of a curve is close to the end if their difference is at most the tolerance relative to
one of them, all in rounded arithmetic. For an end of ordinary size the time then is at most the end and the
tolerance relative to the time (`Double.le_add_of_closeEnough`), although difference and tolerance are both
rounded: if the time is at most twice the end then the difference is exact, and otherwise it is far above the
tolerance (`Double.excess_cases`). Infinity is close to every positive number (`Double.closeEnough_infinity`).
-/

namespace RateCurves

open Scalar Float.Model

namespace Double

open UnpackedFloat

variable {t last x y : Float} {q r : ℚ}

/-! ## Finite values and others -/

theorem sub_self_finite (s : Sign) {m : ℕ} (e : ℤ) (hm : 0 < m) :
    UnpackedFloat.sub Format.binary64 (.finite s m e hm) (.finite s m e hm) = .zero .positive := by
  show UnpackedFloat.normalize Format.binary64 (s.apply _ - s.apply _) _ _ = _
  rw [sub_self]
  rfl

theorem isFinite_eq (x : Float) : isFinite x = (⟨Float.Model.pack
    (UnpackedFloat.sub Format.binary64 x.toModel.unpack x.toModel.unpack)⟩ == (0.0 : Float)) :=
  rfl

theorem unpack_of_not_finite (h : isFinite x = false) :
    x.toModel.unpack = .notANumber ∨ ∃ s, x.toModel.unpack = .infinity s := by
  rw [isFinite_eq] at h
  cases hunpack : x.toModel.unpack with
  | infinity s => exact .inr ⟨s, rfl⟩
  | notANumber => exact .inl rfl
  | zero s =>
    rw [hunpack] at h
    cases s <;> exact absurd h (by decide)
  | finite s m e hm =>
    rw [hunpack, sub_self_finite] at h
    exact absurd h (by decide)

theorem represents_of_pos (hfinite : isFinite x = true) (hpos : 0.0 < x) : ∃ q, Represents x q := by
  obtain ⟨p, p', hp, hp', hlt⟩ := Double.lt_iff.mp hpos
  obtain rfl : toLex (0, toLex (0, 0)) = p := Option.some.inj hp
  rw [isFinite_eq] at hfinite
  rw [placeOf] at hp'
  rcases hunpack : x.toModel.unpack with ⟨_ | _⟩ | _ | s | ⟨_ | _, m, e, hm⟩
  case finite.positive => exact ⟨_, m, e, hm, hunpack, rfl⟩
  case infinity.positive =>
    rw [hunpack] at hfinite
    exact absurd hfinite (by decide)
  case notANumber =>
    rw [hunpack] at hp'
    cases hp'
  all_goals
    rw [hunpack] at hp'
    cases hp'
    simp [Prod.Lex.toLex_lt_toLex] at hlt

/-! ## Rounded excess and rounded tolerance -/

theorem tolerance_represents : Represents (tolerance defaultUnits) (42 * 2 ^ (-52 : ℤ)) :=
  ⟨42 * 2 ^ 47, -99, by decide, rfl, by norm_num [scaled]⟩

/-- The rounded tolerance relative to a number that is not tiny is a number. -/
theorem tolerance_mul_represents (hx : Represents x q) (hlow : 1 / 512 ≤ q) :
    ∃ p, Represents (tolerance defaultUnits * x) p := by
  obtain ⟨y, hy⟩ := exists_represents_zpow (by norm_num : -1074 ≤ (-60 : ℤ)) (by norm_num)
  have hrounds := mul_rounds tolerance_represents hx
  have hbelow : 2 ^ (-60 : ℤ) ≤ 42 * 2 ^ (-52 : ℤ) * q := by
    norm_num
    linarith
  have habove : 42 * 2 ^ (-52 : ℤ) * q ≤ q := by
    norm_num
    linarith
  obtain ⟨p, hp, -, -⟩ := hy.between hx (hrounds.below hy hbelow) (hrounds.above hx habove)
  exact ⟨p, hp⟩

theorem tolerance_mul_above (hx : Represents x q) (hlow : 1 / 512 ≤ q) (hhigh : q ≤ 2 ^ 28) :
    ∃ z v, Represents z v ∧ tolerance defaultUnits * x ≤ z ∧
      v ≤ 42 * 2 ^ (-52 : ℤ) * q * (1 + 2 ^ (-52 : ℤ)) := by
  have hnormal : (2 : ℚ) ^ (-1022 : ℤ) ≤ 42 * 2 ^ (-52 : ℤ) * q := calc
    (2 : ℚ) ^ (-1022 : ℤ) ≤ 2 ^ (-60 : ℤ) := zpow_le_zpow_right₀ one_le_two (by norm_num)
    _ ≤ 42 * 2 ^ (-52 : ℤ) * q := by norm_num; linarith
  have hfinite : 42 * 2 ^ (-52 : ℤ) * q < (2 : ℚ) ^ (1023 : ℤ) := calc
    42 * 2 ^ (-52 : ℤ) * q < 2 ^ (28 : ℤ) := by norm_num at hhigh ⊢; linarith
    _ ≤ 2 ^ (1023 : ℤ) := zpow_le_zpow_right₀ one_le_two (by norm_num)
  obtain ⟨z, v, hz, habove, hclose⟩ := exists_represents_above hnormal hfinite
  exact ⟨z, v, hz, (mul_rounds tolerance_represents hx).above hz habove, hclose⟩

section excess

variable (ht : Represents t q) (hlast : Represents last r) (hlow : 1 / 512 ≤ r) (hlt : r < q)
include ht hlast hlow hlt

theorem excess_cases : (∃ d, Represents d (q - r)) ∨ ∃ a b, Represents a (q / 2) ∧ Represents b (q / 2 / 2) ∧
    2 * r < q := by
  rcases le_or_gt q (2 * r) with hnear | hfar
  · exact .inl (exists_represents_sub ht hlast hlt hnear)
  · have hsmall : (2 : ℚ) ^ (-1000 : ℤ) ≤ q / 2 := calc
      (2 : ℚ) ^ (-1000 : ℤ) ≤ 2 ^ (-9 : ℤ) := zpow_le_zpow_right₀ one_le_two (by norm_num)
      _ ≤ q / 2 := by norm_num; linarith
    obtain ⟨a, ha⟩ := ht.half (by linarith)
    obtain ⟨b, hb⟩ := ha.half hsmall
    exact .inr ⟨a, b, ha, hb, hfar⟩

/-- A time past the end is close to it only if the rounded excess is within one of the rounded tolerances. -/
theorem sub_le_of_closeEnough (h : closeEnough t last = true) :
    t - last ≤ tolerance defaultUnits * t ∨ t - last ≤ tolerance defaultUnits * last := by
  have hexcess : ¬t - last < 0.0 := by
    have hrounds := sub_rounds ht hlast hlt
    obtain ⟨z, v, hz, hle⟩ : ∃ z v, Represents z v ∧ v ≤ q - r := by
      rcases excess_cases ht hlast hlow hlt with ⟨d, hd⟩ | ⟨a, -, ha, -, hfar⟩
      · exact ⟨d, _, hd, le_rfl⟩
      · exact ⟨a, _, ha, by linarith⟩
    have hpos := OrderedScalar.lt_of_lt_of_le hz.zero_lt (hrounds.below hz hle)
    exact OrderedScalar.not_lt_of_le (OrderedScalar.le_of_lt hpos)
  have hproduct : (t * last == (0.0 : Float)) = false := by
    obtain ⟨z, hz⟩ := exists_represents_zpow (by norm_num : -1074 ≤ (-18 : ℤ)) (by norm_num)
    have hle : 2 ^ (-18 : ℤ) ≤ q * r := by
      norm_num
      nlinarith
    have hpos := OrderedScalar.lt_of_lt_of_le hz.zero_lt ((mul_rounds ht hlast).below hz hle)
    exact OrderedScalar.beq_of_lt hpos
  rw [closeEnough, closeEnoughWithin, OrderedScalar.beq_of_lt ((hlast.lt_iff ht).mpr hlt)] at h
  simpa only [hproduct, Bool.false_eq_true, if_false, Scalar.abs, if_neg hexcess, if_neg ht.not_neg,
    if_neg hlast.not_neg, Bool.or_eq_true, decide_eq_true_eq] using h

/-- A time that is close to the end does not exceed the end and the tolerance, added in rounded arithmetic. -/
theorem le_add_of_closeEnough (hhigh : r ≤ 2 ^ 28) (hclose : closeEnough t last = true) :
    t ≤ last + tolerance defaultUnits * t := by
  have h := sub_le_of_closeEnough ht hlast hlow hlt hclose
  have hexcess := sub_rounds ht hlast hlt
  have htolerance := mul_rounds tolerance_represents ht
  have htolerance' := mul_rounds tolerance_represents hlast
  obtain ⟨p, hp⟩ := tolerance_mul_represents ht (hlow.trans hlt.le)
  have hpos := ht.pos
  rcases excess_cases ht hlast hlow hlt with ⟨d, hd⟩ | ⟨a, b, ha, hb, hfar⟩
  · have hexact := hexcess.exact hd
    have hle : t - last ≤ tolerance defaultUnits * t := by
      rcases h with h | h
      · exact h
      · refine htolerance.below hexact ?_
        by_contra hlarge
        -- the time is above the end by more than what rounding adds to the tolerance
        obtain ⟨z, v, hz, habove, hnear⟩ := tolerance_mul_above hlast hlow hhigh
        have hle := (hexact.le_iff hz).mp (OrderedScalar.le_trans h habove)
        norm_num at hlarge hnear
        linarith
    have hle' := (hexact.le_iff hp).mp hle
    exact (add_rounds hlast hp).below ht (by linarith)
  · -- half the time would be at most the excess, and a quarter of it at least the tolerance
    have hle : a ≤ b := by
      refine OrderedScalar.le_trans (hexcess.below ha (by linarith)) ?_
      rcases h with h | h
      · exact OrderedScalar.le_trans h (htolerance.above hb (by norm_num; linarith))
      · exact OrderedScalar.le_trans h (htolerance'.above hb (by norm_num; linarith))
    linarith [(ha.le_iff hb).mp hle]

/-- A time of ordinary size that is far past the end is not close to it. -/
theorem closeEnough_far (hhigh : q ≤ 2 ^ 28) (hfar : r + 1 / 512 ≤ q) : closeEnough t last = false := by
  rw [← Bool.not_eq_true]
  intro hclose
  obtain ⟨a, ha⟩ := exists_represents_zpow (by norm_num : -1074 ≤ (-9 : ℤ)) (by norm_num)
  obtain ⟨b, hb⟩ := exists_represents_zpow (by norm_num : -1074 ≤ (-18 : ℤ)) (by norm_num)
  have hexcess : a ≤ t - last := (sub_rounds ht hlast hlt).below ha (by norm_num; linarith)
  have hle : a ≤ b := by
    refine OrderedScalar.le_trans hexcess ?_
    rcases sub_le_of_closeEnough ht hlast hlow hlt hclose with h | h
    · exact OrderedScalar.le_trans h ((mul_rounds tolerance_represents ht).above hb (by norm_num; linarith))
    · exact OrderedScalar.le_trans h ((mul_rounds tolerance_represents hlast).above hb (by norm_num; linarith))
  have hpowers := (ha.le_iff hb).mp hle
  norm_num at hpowers

end excess

/-! ## Closeness to zero -/

theorem sub_zero_represents (hx : Represents x q) : Represents (x - 0.0) q := by
  obtain ⟨m, e, hm, hunpack, rfl⟩ := hx
  obtain ⟨hcanonical, hgreatest⟩ := unpack_canonical hunpack
  refine ⟨m, e, hm, ?_, rfl⟩
  have hsub : x - 0.0 = ⟨Float.Model.pack (.finite .positive m e hm)⟩ := by
    show (⟨Float.Model.pack (UnpackedFloat.sub Format.binary64 x.toModel.unpack (0.0 : Float).toModel.unpack)⟩ :
      Float) = _
    rw [hunpack]
    rfl
  rw [hsub]
  exact (unpack_pack .positive hcanonical).trans (if_pos hgreatest)

theorem closeEnough_zero (hx : Represents x q) (hlow : 1 / 512 ≤ q) : closeEnough x 0.0 = false := by
  have hproduct : x * 0.0 = 0.0 := by
    obtain ⟨m, e, hm, hunpack, -⟩ := hx
    show (⟨Float.Model.pack (UnpackedFloat.mul Format.binary64 x.toModel.unpack (0.0 : Float).toModel.unpack)⟩ :
      Float) = _
    rw [hunpack]
    rfl
  have hzero : ((0.0 : Float) == 0.0) = true := by decide
  have hdifference := sub_zero_represents hx
  obtain ⟨a, ha⟩ := exists_represents_zpow (by norm_num : -1074 ≤ (-9 : ℤ)) (by norm_num)
  have hfar : ¬x - 0.0 < tolerance defaultUnits * tolerance defaultUnits := by
    have htiny := (mul_rounds tolerance_represents tolerance_represents).above ha (by norm_num)
    have hle : a ≤ x - 0.0 := (ha.le_iff hdifference).mpr (by norm_num; linarith)
    exact OrderedScalar.not_lt_of_le (OrderedScalar.le_trans htiny hle)
  rw [closeEnough, closeEnoughWithin, OrderedScalar.beq_of_lt hx.zero_lt]
  simp only [hproduct, hzero, Bool.false_eq_true, if_false, if_true, Scalar.abs, if_neg hdifference.not_neg,
    decide_eq_false hfar]

/-! ## Values that no comparison refuses -/

theorem not_lt_of_notANumber (h : x.toModel.unpack = .notANumber) (y : Float) : ¬y < x := by
  intro hlt
  obtain ⟨-, p, -, hp, -⟩ := Double.lt_iff.mp hlt
  rw [placeOf, h] at hp
  cases hp

theorem infinity_neg (h : x.toModel.unpack = .infinity .negative) : x < 0.0 := by
  refine Double.lt_iff.mpr ⟨toLex (-2, toLex (0, 0)), toLex (0, toLex (0, 0)), ?_, rfl, by decide⟩
  rw [placeOf, h, place]

theorem closeEnough_infinity (h : x.toModel.unpack = .infinity .positive) (hy : Represents y q) :
    closeEnough x y = true := by
  obtain ⟨m, e, hm, hunpack, -⟩ := hy
  have hproduct : x * y = 1.0 / 0.0 := by
    show (⟨Float.Model.pack (UnpackedFloat.mul Format.binary64 x.toModel.unpack y.toModel.unpack)⟩ : Float) = _
    rw [h, hunpack]
    rfl
  have hdifference : x - y = 1.0 / 0.0 := by
    show (⟨Float.Model.pack (UnpackedFloat.sub Format.binary64 x.toModel.unpack y.toModel.unpack)⟩ : Float) = _
    rw [h, hunpack]
    rfl
  have hnonneg : ¬x < 0.0 := by
    intro hlt
    obtain ⟨p, p', hp, hp', hlt⟩ := Double.lt_iff.mp hlt
    rw [placeOf, h] at hp
    cases hp
    cases hp'
    simp [Prod.Lex.toLex_lt_toLex] at hlt
  have htolerance : tolerance defaultUnits * Scalar.abs x = 1.0 / 0.0 := by
    rw [Scalar.abs, if_neg hnonneg]
    show (⟨Float.Model.pack (UnpackedFloat.mul Format.binary64 (tolerance defaultUnits : Float).toModel.unpack
      x.toModel.unpack)⟩ : Float) = _
    rw [h]
    rfl
  have hpassed : (Scalar.abs (1.0 / 0.0 : Float) ≤ 1.0 / 0.0) = True := eq_true (by decide)
  have hnonzero : ((1.0 / 0.0 : Float) == 0.0) = false := by decide
  rw [closeEnough, closeEnoughWithin]
  simp [hproduct, hdifference, htolerance, hpassed, hnonzero]

end Double

end RateCurves
