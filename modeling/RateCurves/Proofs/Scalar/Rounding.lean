import RateCurves.Proofs.Scalar.Represented

/-!
# Rounding of doubles

A double rounds a number if it stands between the doubles on its two sides (`Double.Rounds`). Sums,
differences, products and quotients of positive doubles round the exact results, and so does a double made
from an integer. Nothing more is said about which of the two neighbours is chosen. What follows about the size
of an error follows from the doubles that exist: a number that is a double is not changed
(`Double.Rounds.exact`), and above a number in the normal range there is a double at a relative distance of
`2 ^ -52` (`Double.exists_represents_above`).
-/

namespace RateCurves.Double

open Float.Model Float.Model.UnpackedFloat

variable {m n : ℕ} {e f : ℤ} {q r : ℚ} {x y z : Float}

/-! ## Rounded mantissas -/

/-- The mantissa is that of the number `q` cut off at the exponent `e`, and the residual bits say whether
anything has been cut off. -/
structure Truncates (em : ExtendedMantissa) (e : ℤ) (q : ℚ) : Prop where
  le : scaled em.mantissa e ≤ q
  lt : q < scaled (em.mantissa + 1) e
  exact_iff : em.roundBit = false ∧ em.stickyBit = false ↔ q = scaled em.mantissa e

namespace Truncates

variable {em : ExtendedMantissa}

theorem shiftRightOne (h : Truncates em e q) : Truncates em.shiftRightOne (e + 1) q := by
  have hshift (k : ℕ) : scaled k (e + 1) = scaled (k * 2) e := (scaled_shift k 1 e).symm
  refine ⟨?_, ?_, ?_⟩
  · rw [hshift]
    exact (scaled_le.mpr (Nat.div_mul_le_self em.mantissa 2)).trans h.le
  · rw [hshift]
    refine h.lt.trans_le (scaled_le.mpr ?_)
    show em.mantissa + 1 ≤ (em.mantissa / 2 + 1) * 2
    omega
  · show (em.mantissa % 2 != 0) = false ∧ (em.roundBit || em.stickyBit) = false ↔
      q = scaled (em.mantissa / 2) (e + 1)
    rw [hshift, bne_eq_false_iff_eq, Bool.or_eq_false_iff, h.exact_iff]
    constructor
    · rintro ⟨heven, hexact⟩
      rwa [Nat.div_mul_cancel (Nat.dvd_of_mod_eq_zero heven)]
    · intro hq
      have hle := scaled_le.mp (h.le.trans hq.le)
      have heven : em.mantissa / 2 * 2 = em.mantissa := by omega
      exact ⟨by omega, by rwa [heven] at hq⟩

theorem shiftRight (h : Truncates em e q) (k : ℕ) : Truncates (em >>> k) (e + k) q := by
  induction k with
  | zero => rwa [Nat.cast_zero, add_zero]
  | succ k ih =>
    rw [Nat.cast_succ, ← add_assoc]
    exact ih.shiftRightOne

theorem roundedMantissa (h : Truncates em e q) : em.roundedMantissa = em.mantissa ∨
    em.roundedMantissa = em.mantissa + 1 ∧ scaled em.mantissa e < q := by
  have hinexact (hbits : ¬(em.roundBit = false ∧ em.stickyBit = false)) : scaled em.mantissa e < q :=
    lt_of_le_of_ne h.le fun heq => hbits (h.exact_iff.mpr heq.symm)
  obtain ⟨mantissa, _ | _, _ | _⟩ := em
  · exact .inl rfl
  · exact .inl rfl
  · rcases Nat.mod_two_eq_zero_or_one mantissa with heven | hodd
    · exact .inl (congrArg (mantissa + ·) heven)
    · exact .inr ⟨congrArg (mantissa + ·) hodd, hinexact fun h => nomatch h.1⟩
  · exact .inr ⟨rfl, hinexact fun h => nomatch h.1⟩

/-- The rounded mantissa is on the same side of every canonical number as the number that is rounded. -/
theorem rounded (h : Truncates em e q) (hfull : -1074 < e → 2 ^ 52 ≤ em.mantissa) (hn : Canonical n f) :
    (scaled n f ≤ q → scaled n f ≤ scaled em.roundedMantissa e) ∧
      (q ≤ scaled n f → scaled em.roundedMantissa e ≤ scaled n f) := by
  have hgrows : em.mantissa ≤ em.roundedMantissa := by
    rcases h.roundedMantissa with heq | ⟨heq, -⟩ <;> omega
  rcases lt_or_ge f e with hless | hge
  · have hlt := hn.lt_of_exponent (hfull (hn.least.trans_lt hless)) hless
    exact ⟨fun _ => hlt.le.trans (scaled_le.mpr hgrows), fun hle => absurd (h.le.trans hle) hlt.not_ge⟩
  · -- the other number is a multiple of the power of two at which this one is cut off
    rw [scaled_align hge]
    refine ⟨fun hle => ?_, fun hle => ?_⟩
    · have hlt := scaled_lt.mp (hle.trans_lt h.lt)
      exact scaled_le.mpr (by omega)
    · rcases h.roundedMantissa with heq | ⟨heq, hlt⟩
      · rw [heq]
        exact h.le.trans hle
      · rw [heq]
        exact scaled_le.mpr (scaled_lt.mp (hlt.trans_le hle))

end Truncates

theorem shiftRight_mantissa (em : ExtendedMantissa) (k : ℕ) : (em >>> k).mantissa = em.mantissa / 2 ^ k := by
  induction k with
  | zero => exact (Nat.div_one _).symm
  | succ k ih =>
    show (em >>> k).mantissa / 2 = _
    rw [ih, Nat.div_div_eq_div_mul, pow_succ]

theorem ofMantissaAndAccuracy_mantissa (m : ℕ) (accuracy : Accuracy) :
    (ExtendedMantissa.ofMantissaAndAccuracy m accuracy).mantissa = m := by
  rcases accuracy with _ | _ | _ | _ <;> rfl

theorem targetExponent_eq (m : ℕ) (e : ℤ) :
    Format.binary64.targetExponent (totalExponent m e) = max (m.log2 + e - 52) (-1074) := by
  show max ((m.log2 : ℤ) + 1 + e - 53) (-1074) = _
  omega

theorem shift_truncates {accuracy : Accuracy}
    (h : Truncates (.ofMantissaAndAccuracy m accuracy) e q)
    (hlong : e ≤ Format.binary64.targetExponent (totalExponent m e)) :
    let shifted := shiftToTargetExponent Format.binary64 m e accuracy
    Truncates shifted.1 shifted.2 q ∧ -1074 ≤ shifted.2 ∧ shifted.1.mantissa < 2 ^ 53 ∧
      (-1074 < shifted.2 → 2 ^ 52 ≤ shifted.1.mantissa) := by
  obtain ⟨k, hk⟩ : ∃ k, k = (Format.binary64.targetExponent (totalExponent m e) - e).toNat := ⟨_, rfl⟩
  have hshifted : shiftToTargetExponent Format.binary64 m e accuracy =
      (ExtendedMantissa.ofMantissaAndAccuracy m accuracy >>> k, e + k) := by
    rw [hk]
    rfl
  rw [targetExponent_eq] at hlong hk
  simp only [hshifted, shiftRight_mantissa, ofMantissaAndAccuracy_mantissa]
  refine ⟨h.shiftRight k, by omega, ?_, fun hfull => ?_⟩
  · rw [Nat.div_lt_iff_lt_mul (by positivity)]
    calc m < 2 ^ (m.log2 + 1) := Nat.lt_log2_self
      _ ≤ 2 ^ (53 + k) := Nat.pow_le_pow_right two_pos (by omega)
      _ = 2 ^ 53 * 2 ^ k := pow_add ..
  · have hlog : m.log2 = 52 + k := by omega
    have hpos : m ≠ 0 := by
      rintro rfl
      rw [Nat.log2_zero] at hlog
      omega
    rw [Nat.le_div_iff_mul_le (by positivity), ← pow_add, ← hlog]
    exact Nat.log2_self_le hpos

theorem shift_canonical (hle : m ≤ 2 ^ 53) (hleast : -1074 ≤ e) (hfull : -1074 < e → 2 ^ 52 ≤ m) :
    let shifted := shiftToTargetExponent Format.binary64 m e .exact
    scaled shifted.1.mantissa shifted.2 = scaled m e ∧
      (shifted.1.mantissa ≠ 0 → Canonical shifted.1.mantissa shifted.2) := by
  obtain ⟨k, hk⟩ : ∃ k, k = (Format.binary64.targetExponent (totalExponent m e) - e).toNat := ⟨_, rfl⟩
  have hshifted : shiftToTargetExponent Format.binary64 m e .exact =
      (ExtendedMantissa.ofMantissaAndAccuracy m .exact >>> k, e + k) := by
    rw [hk]
    rfl
  rw [targetExponent_eq] at hk
  simp only [hshifted, shiftRight_mantissa, ofMantissaAndAccuracy_mantissa]
  rcases Nat.lt_or_eq_of_le hle with hlt | rfl
  · have hlog : m.log2 ≤ 52 := by
      rcases Nat.eq_zero_or_pos m with rfl | hpos
      · rw [Nat.log2_zero]
        omega
      · exact Nat.le_of_lt_succ ((Nat.log2_lt hpos.ne').mpr hlt)
    obtain rfl : k = 0 := by omega
    rw [pow_zero, Nat.div_one, Nat.cast_zero, add_zero]
    exact ⟨rfl, fun hpos => ⟨Nat.pos_of_ne_zero hpos, hlt, hleast, hfull⟩⟩
  · rw [Nat.log2_two_pow] at hk
    obtain rfl : k = 1 := by omega
    refine ⟨(scaled_shift (2 ^ 52) 1 e).symm, fun _ => ?_⟩
    exact ⟨by norm_num, by norm_num, by omega, fun _ => by norm_num⟩

/-! ## Rounded numbers -/

/-- The double stands between the positive doubles on the two sides of `q`. -/
structure Rounds (q : ℚ) (r : Float) : Prop where
  below : ∀ {x v}, Represents x v → v ≤ q → x ≤ r
  above : ∀ {x v}, Represents x v → q ≤ v → r ≤ x

theorem Represents.placeOf_eq (hx : Represents x q) : ∃ u, placeOf x = some (toLex (1, u)) := by
  obtain ⟨m, e, hm, hunpack, -⟩ := hx
  exact ⟨_, by rw [placeOf, hunpack, place]⟩

/-- Rounding gives zero or a canonical mantissa and exponent, on the same side of every canonical number as the
number that is rounded. -/
theorem roundWithAccuracy_eq (s : Sign) {accuracy : Accuracy}
    (h : Truncates (.ofMantissaAndAccuracy m accuracy) e q)
    (hlong : e ≤ Format.binary64.targetExponent (totalExponent m e)) :
    ∃ n f, (roundWithAccuracy Format.binary64 s m e accuracy =
        if hn : n = 0 then .zero s else .finite s n f (Nat.pos_of_ne_zero hn)) ∧
      (n ≠ 0 → Canonical n f) ∧ ∀ {k g}, Canonical k g →
        (scaled k g ≤ q → scaled k g ≤ scaled n f) ∧
        (q ≤ scaled k g → scaled n f ≤ scaled k g) := by
  obtain ⟨em, e₁, hfirst⟩ : ∃ em e₁, shiftToTargetExponent Format.binary64 m e accuracy = (em, e₁) :=
    ⟨_, _, rfl⟩
  obtain ⟨em', e₂, hsecond⟩ : ∃ em' e₂,
    shiftToTargetExponent Format.binary64 em.roundedMantissa e₁ .exact = (em', e₂) := ⟨_, _, rfl⟩
  have hcut := shift_truncates h hlong
  simp only [hfirst] at hcut
  obtain ⟨htruncates, hleast, hlt, hfull⟩ := hcut
  have hrounded : em.mantissa ≤ em.roundedMantissa ∧ em.roundedMantissa ≤ 2 ^ 53 := by
    rcases htruncates.roundedMantissa with heq | ⟨heq, -⟩ <;> omega
  have hfinal := shift_canonical hrounded.2 hleast fun hgt => (hfull hgt).trans hrounded.1
  simp only [hsecond] at hfinal
  refine ⟨em'.mantissa, e₂, ?_, hfinal.2, fun hk => ?_⟩
  · unfold roundWithAccuracy
    simp only [hfirst, hsecond]
  · rw [hfinal.1]
    exact htruncates.rounded hfull hk

/-- The double that is packed from a mantissa with an exponent and an accuracy rounds the number they are
about. -/
theorem roundWithAccuracy_rounds {accuracy : Accuracy}
    (h : Truncates (.ofMantissaAndAccuracy m accuracy) e q)
    (hlong : e ≤ Format.binary64.targetExponent (totalExponent m e)) :
    Rounds q ⟨Float.Model.pack (roundWithAccuracy Format.binary64 .positive m e accuracy)⟩ := by
  obtain ⟨n, f, hround, hcanonical, hsides⟩ := roundWithAccuracy_eq .positive h hlong
  rw [hround]
  split_ifs with hzero
  · -- too small for a double: nothing lies below, and everything above
    have hplace : placeOf ⟨Float.Model.pack (.zero .positive)⟩ = some (toLex (0, toLex (0, 0))) := rfl
    refine ⟨?_, ?_⟩
    · rintro x v ⟨k, g, hk, hunpack, rfl⟩ hle
      have hle := (hsides (unpack_canonical hunpack).1).1 hle
      rw [hzero, show scaled 0 f = 0 by rw [scaled, Nat.cast_zero, zero_mul]] at hle
      exact absurd (scaled_pos hk g) hle.not_gt
    · intro x v hx _
      obtain ⟨u, hu⟩ := hx.placeOf_eq
      rw [le_iff_places hplace hu, Prod.Lex.toLex_le_toLex]
      exact .inl one_pos
  · have hn := hcanonical hzero
    have hunpack : ((⟨Float.Model.pack (.finite .positive n f hn.pos)⟩ : Float).toModel).unpack =
        if f ≤ 971 then .finite .positive n f hn.pos else .infinity .positive := unpack_pack .positive hn
    by_cases hfits : f ≤ 971
    · rw [if_pos hfits] at hunpack
      have hr : Represents ⟨Float.Model.pack (.finite .positive n f hn.pos)⟩ (scaled n f) :=
        ⟨n, f, hn.pos, hunpack, rfl⟩
      refine ⟨fun hx hle => (hx.le_iff hr).mpr ?_, fun hx hle => (hr.le_iff hx).mpr ?_⟩
      · obtain ⟨k, g, hk, hx, rfl⟩ := hx
        exact (hsides (unpack_canonical hx).1).1 hle
      · obtain ⟨k, g, hk, hx, rfl⟩ := hx
        exact (hsides (unpack_canonical hx).1).2 hle
    · -- too large for a double: everything lies below, and nothing above
      rw [if_neg hfits] at hunpack
      have hplace : placeOf ⟨Float.Model.pack (.finite .positive n f hn.pos)⟩ =
          some (toLex (2, toLex (0, 0))) := by
        rw [placeOf, hunpack, place]
      refine ⟨?_, ?_⟩
      · intro x v hx _
        obtain ⟨u, hu⟩ := hx.placeOf_eq
        rw [le_iff_places hu hplace, Prod.Lex.toLex_le_toLex]
        exact .inl one_lt_two
      · rintro x v ⟨k, g, hk, hx, rfl⟩ hle
        obtain ⟨hcanonical', hgreatest⟩ := unpack_canonical hx
        have hle := (hsides hcanonical').2 hle
        have hless : g < f := by omega
        exact absurd (hcanonical'.lt_of_exponent (hn.full (hcanonical'.least.trans_lt hless)) hless) hle.not_gt

theorem roundWithAccuracy_neg {accuracy : Accuracy} {v : ℚ}
    (h : Truncates (.ofMantissaAndAccuracy m accuracy) e q)
    (hlong : e ≤ Format.binary64.targetExponent (totalExponent m e)) (hz : Represents z v) (hle : v ≤ q) :
    (⟨Float.Model.pack (roundWithAccuracy Format.binary64 .negative m e accuracy)⟩ : Float) < 0.0 := by
  obtain ⟨n, f, hround, hcanonical, hsides⟩ := roundWithAccuracy_eq .negative h hlong
  have hn : n ≠ 0 := by
    obtain ⟨k, g, hk, hunpack, rfl⟩ := hz
    have hbelow := (hsides (unpack_canonical hunpack).1).1 hle
    rintro rfl
    rw [show scaled 0 f = 0 by rw [scaled, Nat.cast_zero, zero_mul]] at hbelow
    exact absurd (scaled_pos hk g) hbelow.not_gt
  rw [hround, dif_neg hn]
  have hzero : placeOf 0.0 = some (toLex (0, toLex (0, 0))) := rfl
  have hunpack : ((⟨Float.Model.pack (.finite .negative n f (Nat.pos_of_ne_zero hn))⟩ : Float).toModel).unpack =
      if f ≤ 971 then .finite .negative n f (Nat.pos_of_ne_zero hn) else .infinity .negative :=
    unpack_pack .negative (hcanonical hn)
  split_ifs at hunpack
  · refine lt_iff.mpr ⟨toLex (-1, toLex (-f, -n)), _, ?_, hzero, by simp [Prod.Lex.toLex_lt_toLex]⟩
    rw [placeOf, hunpack, place]
  · refine lt_iff.mpr ⟨toLex (-2, toLex (0, 0)), _, ?_, hzero, by decide⟩
    rw [placeOf, hunpack, place]

/-! ## Operations -/

theorem truncates_exact (m : ℕ) (e : ℤ) : Truncates (.ofMantissaAndAccuracy m .exact) e (scaled m e) :=
  ⟨le_rfl, scaled_lt.mpr m.lt_succ_self, fun _ => rfl, fun _ => ⟨rfl, rfl⟩⟩

theorem long_of_full (h : -1074 < e → 2 ^ 52 ≤ m) :
    e ≤ Format.binary64.targetExponent (totalExponent m e) := by
  rw [targetExponent_eq]
  rcases le_or_gt e (-1074) with hle | hgt
  · omega
  · have hfull := h hgt
    have hlog : 52 ≤ m.log2 := (Nat.le_log2 (by omega)).mpr hfull
    omega

theorem mul_rounds (hx : Represents x q) (hy : Represents y r) : Rounds (q * r) (x * y) := by
  obtain ⟨m, e, hm, hunpack, rfl⟩ := hx
  obtain ⟨n, f, hn, hunpack', rfl⟩ := hy
  have hproduct : scaled m e * scaled n f = scaled (m * n) (e + f) := by
    rw [scaled, scaled, scaled, zpow_add₀ two_ne_zero]
    push_cast
    ring
  have hmul : x * y =
      ⟨Float.Model.pack (roundWithAccuracy Format.binary64 .positive (m * n) (e + f) .exact)⟩ := by
    show (⟨Float.Model.pack (UnpackedFloat.mul Format.binary64 x.toModel.unpack y.toModel.unpack)⟩ : Float) = _
    rw [hunpack, hunpack']
    rfl
  obtain ⟨⟨-, -, hleast, hfull⟩, -⟩ := unpack_canonical hunpack
  obtain ⟨⟨-, -, hleast', hfull'⟩, -⟩ := unpack_canonical hunpack'
  rw [hmul, hproduct]
  refine roundWithAccuracy_rounds (truncates_exact ..) (long_of_full fun hgt => ?_)
  -- one of the two exponents is not the least one
  rcases lt_or_ge (-1074) e with h | h
  · exact (hfull h).trans (Nat.le_mul_of_pos_right m hn)
  · exact (hfull' (by omega)).trans (Nat.le_mul_of_pos_left n hm)

theorem truncates_quotient (m : ℕ) {n : ℕ} (hn : 0 < n) (e : ℤ) :
    Truncates (.ofMantissaAndAccuracy (m / n) (accuracyOfFraction (m % n) n)) e (scaled m e / n) := by
  have hn' : (0 : ℚ) < n := Nat.cast_pos.mpr hn
  have hdivision := Nat.div_add_mod m n
  have hbits : ((ExtendedMantissa.ofMantissaAndAccuracy (m / n) (accuracyOfFraction (m % n) n)).roundBit = false ∧
      (ExtendedMantissa.ofMantissaAndAccuracy (m / n) (accuracyOfFraction (m % n) n)).stickyBit = false) ↔
      m % n = 0 := by
    unfold accuracyOfFraction
    split_ifs with hzero
    · exact ⟨fun _ => hzero, fun _ => ⟨rfl, rfl⟩⟩
    · cases compare (2 * (m % n)) n <;> simp [ExtendedMantissa.ofMantissaAndAccuracy, hzero]
  have hscale (k : ℕ) : scaled k e = scaled (k * n) e / n := by
    rw [eq_div_iff hn'.ne', scaled, scaled]
    push_cast
    ring
  refine ⟨?_, ?_, ?_⟩
  · rw [ofMantissaAndAccuracy_mantissa, hscale, div_le_div_iff_of_pos_right hn', scaled_le]
    exact Nat.div_mul_le_self m n
  · rw [ofMantissaAndAccuracy_mantissa, hscale (m / n + 1), div_lt_div_iff_of_pos_right hn', scaled_lt]
    have hmod := Nat.mod_lt m hn
    nlinarith
  · rw [hbits, ofMantissaAndAccuracy_mantissa, hscale (m / n), div_left_inj' hn'.ne']
    constructor
    · intro hexact
      rw [Nat.div_mul_cancel (Nat.dvd_of_mod_eq_zero hexact)]
    · intro heq
      have := scaled_le.mp heq.le
      rw [mul_comm] at this
      omega

/-- Division computes enough of a quotient to round it. -/
theorem divCore_truncates (hm : 0 < m) (hn : 0 < n) (e f : ℤ) :
    let quotient := divCore Format.binary64 m e n f
    Truncates (.ofMantissaAndAccuracy quotient.1 quotient.2.2) quotient.2.1 (scaled m e / scaled n f) ∧
      quotient.2.1 ≤ Format.binary64.targetExponent (totalExponent quotient.1 quotient.2.1) := by
  obtain ⟨g, hg⟩ : ∃ g, g = min (e - f)
      (Format.binary64.targetExponent (totalExponent m e - totalExponent n f)) := ⟨_, rfl⟩
  obtain ⟨k, hk⟩ : ∃ k, k = (e - f - g).toNat := ⟨_, rfl⟩
  have hcore : divCore Format.binary64 m e n f =
      ((m * 2 ^ k) / n, g, accuracyOfFraction ((m * 2 ^ k) % n) n) := by
    rw [hk, hg, ← Nat.shiftLeft_eq]
    rfl
  have hquotient : scaled m e / scaled n f = scaled (m * 2 ^ k) g / n := by
    have hexponent : g + k = e - f := by omega
    rw [scaled_shift, hexponent, scaled, scaled, scaled, zpow_sub₀ two_ne_zero]
    field_simp
  simp only [hcore]
  rw [hquotient]
  refine ⟨truncates_quotient _ hn g, long_of_full fun hgt => ?_⟩
  have htarget : Format.binary64.targetExponent (totalExponent m e - totalExponent n f) =
      max (m.log2 + e - n.log2 - f - 53) (-1074) := by
    show max ((m.log2 : ℤ) + 1 + e - (n.log2 + 1 + f) - 53) (-1074) = _
    omega
  rw [Nat.le_div_iff_mul_le hn]
  calc 2 ^ 52 * n ≤ 2 ^ 52 * 2 ^ (n.log2 + 1) := Nat.mul_le_mul_left _ Nat.lt_log2_self.le
    _ = 2 ^ (n.log2 + 53) := by rw [← pow_add]; congr 1; omega
    _ ≤ 2 ^ (m.log2 + k) := Nat.pow_le_pow_right two_pos (by omega)
    _ = 2 ^ m.log2 * 2 ^ k := pow_add ..
    _ ≤ m * 2 ^ k := Nat.mul_le_mul_right _ (Nat.log2_self_le hm.ne')

theorem div_rounds (hx : Represents x q) (hy : Represents y r) : Rounds (q / r) (x / y) := by
  obtain ⟨m, e, hm, hunpack, rfl⟩ := hx
  obtain ⟨n, f, hn, hunpack', rfl⟩ := hy
  obtain ⟨htruncates, hlong⟩ := divCore_truncates hm hn e f
  have hdiv : x / y =
      ⟨Float.Model.pack (UnpackedFloat.div Format.binary64 x.toModel.unpack y.toModel.unpack)⟩ := rfl
  rw [hdiv, hunpack, hunpack']
  exact roundWithAccuracy_rounds htruncates hlong

theorem neg_div_neg (hx : Represents x q) (hy : Represents y r) {v : ℚ} (hz : Represents z v) (hle : v ≤ q / r) :
    -x / y < 0.0 := by
  obtain ⟨m, e, hm, hunpack, rfl⟩ := hx
  obtain ⟨n, f, hn, hunpack', rfl⟩ := hy
  obtain ⟨htruncates, hlong⟩ := divCore_truncates hm hn e f
  obtain ⟨hcanonical, hgreatest⟩ := unpack_canonical hunpack
  have hneg : (-x).toModel.unpack = .finite .negative m e hm := by
    show (Float.Model.pack (UnpackedFloat.neg x.toModel.unpack)).unpack = _
    rw [hunpack]
    exact (unpack_pack .negative hcanonical).trans (if_pos hgreatest)
  have hdiv : -x / y =
      ⟨Float.Model.pack (UnpackedFloat.div Format.binary64 (-x).toModel.unpack y.toModel.unpack)⟩ := rfl
  rw [hdiv, hneg, hunpack']
  exact roundWithAccuracy_neg htruncates hlong hz hle

theorem round_rounds (hm : 0 < m) (e : ℤ) :
    Rounds (scaled m e) ⟨Float.Model.pack (UnpackedFloat.round Format.binary64 .positive m e)⟩ := by
  obtain ⟨k, hk⟩ : ∃ k, k = (e - Format.binary64.targetExponent (totalExponent m e)).toNat := ⟨_, rfl⟩
  have hround : UnpackedFloat.round Format.binary64 .positive m e =
      roundWithAccuracy Format.binary64 .positive (m * 2 ^ k) (e - k) .exact := by
    rw [hk, ← Nat.shiftLeft_eq]
    rfl
  have hshift : scaled m e = scaled (m * 2 ^ k) (e - k) := by rw [scaled_shift, sub_add_cancel]
  rw [hround, hshift]
  refine roundWithAccuracy_rounds (truncates_exact ..) ?_
  have hlog : m.log2 + k ≤ (m * 2 ^ k).log2 := by
    rw [Nat.le_log2 (by positivity), pow_add]
    exact Nat.mul_le_mul_right _ (Nat.log2_self_le hm.ne')
  rw [targetExponent_eq] at hk ⊢
  omega

theorem normalize_rounds {n : ℤ} (hn : 0 < n) (e : ℤ) :
    Rounds (n * 2 ^ e) ⟨Float.Model.pack (UnpackedFloat.normalize Format.binary64 n e .positive)⟩ := by
  obtain ⟨m, rfl⟩ := Int.eq_ofNat_of_zero_le hn.le
  have hnormalize : UnpackedFloat.normalize Format.binary64 m e .positive =
      UnpackedFloat.round Format.binary64 .positive m e := by
    rw [UnpackedFloat.normalize, compare_gt_iff_gt.mpr hn]
    rfl
  rw [hnormalize]
  exact round_rounds (Int.natCast_pos.mp hn) e

theorem align_min (m n : ℕ) (e f : ℤ) :
    scaled m e = ((decreaseExponent m e (min e f)).1 : ℤ) * 2 ^ min e f ∧
      scaled n f = ((decreaseExponent n f (min e f)).1 : ℤ) * 2 ^ min e f := by
  have hshift (k : ℕ) {g : ℤ} (hg : min e f ≤ g) :
      scaled k g = ((decreaseExponent k g (min e f)).1 : ℤ) * 2 ^ min e f := by
    rw [scaled_align hg, scaled, decreaseExponent, Nat.shiftLeft_eq, Int.cast_natCast]
  exact ⟨hshift m (min_le_left e f), hshift n (min_le_right e f)⟩

theorem add_rounds (hx : Represents x q) (hy : Represents y r) : Rounds (q + r) (x + y) := by
  have hpos := add_pos hx.pos hy.pos
  obtain ⟨m, e, hm, hunpack, rfl⟩ := hx
  obtain ⟨n, f, hn, hunpack', rfl⟩ := hy
  obtain ⟨hleft, hright⟩ := align_min m n e f
  have hadd : x + y = ⟨Float.Model.pack (UnpackedFloat.normalize Format.binary64
      ((decreaseExponent m e (min e f)).1 + (decreaseExponent n f (min e f)).1) (min e f) .positive)⟩ := by
    show (⟨Float.Model.pack (UnpackedFloat.add Format.binary64 x.toModel.unpack y.toModel.unpack)⟩ : Float) = _
    rw [hunpack, hunpack']
    rfl
  rw [hleft, hright, ← add_mul, ← Int.cast_add] at hpos ⊢
  rw [hadd]
  exact normalize_rounds (Int.cast_pos.mp (pos_of_mul_pos_left hpos (zpow_pos two_pos _).le)) _

theorem sub_rounds (hx : Represents x q) (hy : Represents y r) (h : r < q) : Rounds (q - r) (x - y) := by
  have hpos := sub_pos.mpr h
  obtain ⟨m, e, hm, hunpack, rfl⟩ := hx
  obtain ⟨n, f, hn, hunpack', rfl⟩ := hy
  obtain ⟨hleft, hright⟩ := align_min m n e f
  have hsub : x - y = ⟨Float.Model.pack (UnpackedFloat.normalize Format.binary64
      ((decreaseExponent m e (min e f)).1 - (decreaseExponent n f (min e f)).1) (min e f) .positive)⟩ := by
    show (⟨Float.Model.pack (UnpackedFloat.sub Format.binary64 x.toModel.unpack y.toModel.unpack)⟩ : Float) = _
    rw [hunpack, hunpack']
    rfl
  rw [hleft, hright, ← sub_mul, ← Int.cast_sub] at hpos ⊢
  rw [hsub]
  exact normalize_rounds (Int.cast_pos.mp (pos_of_mul_pos_left hpos (zpow_pos two_pos _).le)) _

/-! ## Numbers that need no rounding -/

theorem Rounds.exact (h : Rounds q y) (hx : Represents x q) : Represents y q := by
  obtain ⟨v, hy, hle, hge⟩ := hx.between hx (h.below hx le_rfl) (h.above hx le_rfl)
  rwa [hge.antisymm hle] at hy

theorem represents_one : Represents 1.0 1 :=
  ⟨2 ^ 52, -52, by decide, rfl, by norm_num [scaled]⟩

theorem ofInt_represents {n : ℤ} (hpos : 0 < n) (hlt : n < 2 ^ 53) : Represents (Float.ofInt n) n := by
  obtain ⟨m, rfl⟩ := Int.eq_ofNat_of_zero_le hpos.le
  have hm : m < 2 ^ 53 := by exact_mod_cast hlt
  obtain ⟨x, hx⟩ := exists_represents (Int.natCast_pos.mp hpos) hm (by norm_num : (-1074 : ℤ) ≤ 0) (by norm_num)
  have hvalue : scaled m 0 = (m : ℤ) := by rw [scaled, zpow_zero, mul_one, Int.cast_natCast]
  have hmade : Float.ofInt m = m.toUInt64.toFloat * 1.0 := by
    show Float.ofScientific m false 0 = _
    rw [Float.ofScientific, dif_pos ⟨hm, by norm_num⟩]
    rfl
  have hword : (m.toUInt64.toNat : ℤ) = m := by
    rw [UInt64.toNat_ofNat_of_lt' (hm.trans (by decide))]
  have hinteger : Represents m.toUInt64.toFloat (m : ℤ) := by
    have hrounds : Rounds ((m.toUInt64.toNat : ℤ) * 2 ^ (0 : ℤ)) m.toUInt64.toFloat :=
      normalize_rounds (hword ▸ hpos) 0
    rw [hword, zpow_zero, mul_one] at hrounds
    rw [hvalue] at hx
    exact hrounds.exact hx
  rw [hmade]
  exact (by simpa using mul_rounds hinteger represents_one : Rounds _ _).exact hinteger

theorem Represents.half (hx : Represents x q) (hlow : 2 ^ (-1000 : ℤ) ≤ q) : ∃ y, Represents y (q / 2) := by
  obtain ⟨m, e, hm, hunpack, rfl⟩ := hx
  obtain ⟨⟨-, hlt, -, -⟩, hgreatest⟩ := unpack_canonical hunpack
  have hexponent : -1053 ≤ e := by
    by_contra hless
    have : scaled m e < 2 ^ (-1000 : ℤ) := calc
      scaled m e < scaled (2 ^ 53) e := scaled_lt.mpr hlt
      _ = 2 ^ (53 + e) := by rw [scaled, zpow_add₀ two_ne_zero]; norm_num
      _ ≤ 2 ^ (-1000 : ℤ) := zpow_le_zpow_right₀ one_le_two (by omega)
    exact absurd hlow this.not_ge
  have hhalf : scaled m e / 2 = scaled m (e - 1) := by
    rw [scaled, scaled, zpow_sub_one₀ two_ne_zero]
    ring
  rw [hhalf]
  exact exists_represents hm hlt (by omega) (by omega)

/-- A difference is a double if the larger operand is at most twice the smaller one. -/
theorem exists_represents_sub (hx : Represents x q) (hy : Represents y r) (hlt : r < q) (hle : q ≤ 2 * r) :
    ∃ z, Represents z (q - r) := by
  obtain ⟨m, e, hm, hunpack, rfl⟩ := hx
  obtain ⟨n, f, hn, hunpack', rfl⟩ := hy
  obtain ⟨hcanonical, -⟩ := unpack_canonical hunpack
  obtain ⟨hcanonical', hgreatest⟩ := unpack_canonical hunpack'
  have hfe : f ≤ e := by
    rcases (hcanonical'.le_iff hcanonical).mp hlt.le with h | ⟨h, -⟩
    · exact h.le
    · exact h.le
  obtain ⟨k, hk⟩ : ∃ k, m * 2 ^ (e - f).toNat = n + k := by
    rw [scaled_align hfe, scaled_lt] at hlt
    exact ⟨_, (Nat.add_sub_cancel' hlt.le).symm⟩
  have hdouble : 2 * scaled n f = scaled (n * 2) f := by
    rw [scaled, scaled]
    push_cast
    ring
  have hdifference : scaled m e - scaled n f = scaled k f := by
    rw [scaled_align hfe, hk, scaled, scaled, scaled]
    push_cast
    ring
  rw [scaled_align hfe, hk, scaled_lt] at hlt
  rw [scaled_align hfe, hk, hdouble, scaled_le] at hle
  have hbits := hcanonical'.lt
  rw [hdifference]
  exact exists_represents (by omega) (by omega) hcanonical'.least hgreatest

/-- Rounding moves a number of ordinary size by `2 ^ -20` at most. -/
theorem Rounds.near (h : Rounds q y) (hlow : 1 / 512 ≤ q) (hhigh : q ≤ 2 ^ 28) :
    ∃ v, Represents y v ∧ q - 1 / 2 ^ 20 ≤ v ∧ v ≤ q + 1 / 2 ^ 20 := by
  -- the two multiples of `2 ^ -20` around the number are doubles
  obtain ⟨k, hk⟩ : ∃ k, k = ⌊q * 2 ^ 20⌋₊ := ⟨_, rfl⟩
  have hscaled (j : ℕ) : scaled j (-20) = j / 2 ^ 20 := by
    rw [scaled]
    norm_num
    ring
  have hfloor : (k : ℚ) ≤ q * 2 ^ 20 := hk ▸ Nat.floor_le (by linarith)
  have hceil : q * 2 ^ 20 < k + 1 := hk ▸ Nat.lt_floor_add_one _
  have hpos : 0 < k := by
    rw [hk, Nat.floor_pos]
    linarith
  have hbits : k < 2 ^ 50 := by
    have : (k : ℚ) < 2 ^ 50 := by linarith
    exact_mod_cast this
  obtain ⟨x, hx⟩ := exists_represents hpos (hbits.trans (by norm_num)) (by norm_num : (-1074 : ℤ) ≤ -20) (by norm_num)
  obtain ⟨z, hz⟩ := exists_represents k.succ_pos (by omega) (by norm_num : (-1074 : ℤ) ≤ -20) (by norm_num)
  rw [hscaled] at hx hz
  push_cast at hz
  have hbelow : (k / 2 ^ 20 : ℚ) ≤ q := by linarith
  have habove : q ≤ (k + 1) / 2 ^ 20 := by linarith
  obtain ⟨v, hv, hle, hge⟩ := hx.between hz (h.below hx hbelow) (h.above hz habove)
  exact ⟨v, hv, by linarith, by linarith⟩

/-- Above a number in the normal range there is a double at a relative distance of at most `2 ^ -52`. -/
theorem exists_represents_above (hlow : 2 ^ (-1022 : ℤ) ≤ q) (hhigh : q < 2 ^ (1023 : ℤ)) :
    ∃ x v, Represents x v ∧ q ≤ v ∧ v ≤ q * (1 + 2 ^ (-52 : ℤ)) := by
  have hq : 0 < q := (zpow_pos two_pos _).trans_le hlow
  obtain ⟨e, he⟩ : ∃ e, e = Int.log 2 q - 52 := ⟨_, rfl⟩
  have hlog : -1022 ≤ Int.log 2 q := (Int.zpow_le_iff_le_log one_lt_two hq).mp (by exact_mod_cast hlow)
  have hlog' : Int.log 2 q < 1023 := (Int.lt_zpow_iff_log_lt one_lt_two hq).mp (by rwa [Nat.cast_two])
  have hpower : (0 : ℚ) < 2 ^ e := zpow_pos two_pos e
  have hfull : (2 : ℚ) ^ 52 * 2 ^ e ≤ q := by
    have := Int.zpow_log_le_self one_lt_two hq
    rwa [show Int.log 2 q = 52 + e by omega, zpow_add₀ (by norm_num)] at this
  have hshort : q ≤ 2 ^ 53 * 2 ^ e := by
    have := (Int.lt_zpow_succ_log_self one_lt_two q).le
    rwa [show Int.log 2 q + 1 = 53 + e by omega, zpow_add₀ (by norm_num)] at this
  -- the mantissa of 53 bits, rounded up
  obtain ⟨m, hm⟩ : ∃ m, m = ⌈q / 2 ^ e⌉₊ := ⟨_, rfl⟩
  have habove : q ≤ scaled m e := by
    rw [scaled, ← div_le_iff₀ hpower, hm]
    exact Nat.le_ceil _
  have hnear : scaled m e ≤ q * (1 + 2 ^ (-52 : ℤ)) := by
    have hlt : (m : ℚ) < q / 2 ^ e + 1 := hm ▸ Nat.ceil_lt_add_one (by positivity)
    calc scaled m e ≤ (q / 2 ^ e + 1) * 2 ^ e := mul_le_mul_of_nonneg_right hlt.le hpower.le
      _ = q + 2 ^ e := by field_simp
      _ ≤ q * (1 + 2 ^ (-52 : ℤ)) := by norm_num at hfull ⊢; linarith
  have hpos : 0 < m := hm ▸ Nat.ceil_pos.mpr (by positivity)
  have hle : m ≤ 2 ^ 53 := by
    rw [hm, Nat.ceil_le, div_le_iff₀ hpower]
    exact_mod_cast hshort
  obtain ⟨x, hx⟩ : ∃ x, Represents x (scaled m e) := by
    rcases hle.lt_or_eq with hlt | rfl
    · exact exists_represents hpos hlt (by omega) (by omega)
    · rw [show scaled (2 ^ 53) e = scaled (2 ^ 52) (e + 1) from scaled_shift (2 ^ 52) 1 e]
      exact exists_represents (by norm_num) (by norm_num) (by omega) (by omega)
  exact ⟨x, _, hx, habove, hnear⟩

end RateCurves.Double
