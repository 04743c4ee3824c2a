import RateCurves.Proofs.Scalar.Double

/-!
# Doubles as numbers

A finite double is unpacked into a mantissa of at most 53 bits and an exponent, and packing keeps these two
(`Double.unpack_pack`). So a positive double that is finite represents a number, a mantissa times a power of
two (`Double.Represents`), positive doubles compare as the numbers do (`Double.Represents.le_iff`), and there
is a double for every mantissa of at most 53 bits (`Double.exists_represents`).
-/

namespace RateCurves.Double

open Float.Model Float.Model.UnpackedFloat

/-! ## Mantissas and exponents -/

/-- The number that a mantissa and an exponent stand for: the mantissa scaled by a power of two. -/
def scaled (m : ℕ) (e : ℤ) : ℚ := m * 2 ^ e

variable {m n : ℕ} {e f : ℤ} {q r : ℚ}

theorem scaled_pos (hm : 0 < m) (e : ℤ) : 0 < scaled m e :=
  mul_pos (Nat.cast_pos.mpr hm) (zpow_pos two_pos e)

theorem scaled_le : scaled m e ≤ scaled n e ↔ m ≤ n := by
  rw [scaled, scaled, mul_le_mul_iff_left₀ (zpow_pos two_pos e), Nat.cast_le]

theorem scaled_lt : scaled m e < scaled n e ↔ m < n := by
  rw [scaled, scaled, mul_lt_mul_iff_left₀ (zpow_pos two_pos e), Nat.cast_lt]

theorem scaled_shift (m k : ℕ) (e : ℤ) : scaled (m * 2 ^ k) e = scaled m (e + k) := by
  rw [scaled, scaled, zpow_add₀ two_ne_zero, zpow_natCast]
  push_cast
  ring

theorem scaled_align (h : e ≤ f) (n : ℕ) : scaled n f = scaled (n * 2 ^ (f - e).toNat) e := by
  rw [scaled_shift]
  congr 1
  omega

/-- The mantissa has 53 bits unless the exponent is the least one, and at most 53 bits then. -/
structure Canonical (m : ℕ) (e : ℤ) : Prop where
  pos : 0 < m
  lt : m < 2 ^ 53
  least : -1074 ≤ e
  full : -1074 < e → 2 ^ 52 ≤ m

theorem Canonical.lt_of_exponent (hm : Canonical m e) (hn : 2 ^ 52 ≤ n) (h : e < f) :
    scaled m e < scaled n f := by
  rw [scaled_align h.le, scaled_lt]
  obtain ⟨k, hk⟩ : ∃ k, (f - e).toNat = k + 1 := ⟨(f - e).toNat - 1, by omega⟩
  have hlt := hm.lt
  calc m < 2 ^ 52 * 2 := by omega
    _ ≤ n * 2 ^ (k + 1) := Nat.mul_le_mul hn (by rw [pow_succ]; exact Nat.le_mul_of_pos_left 2 (by positivity))
    _ = n * 2 ^ (f - e).toNat := by rw [hk]

theorem Canonical.le_iff (hm : Canonical m e) (hn : Canonical n f) :
    scaled m e ≤ scaled n f ↔ e < f ∨ e = f ∧ m ≤ n := by
  rcases lt_trichotomy e f with h | rfl | h
  · exact ⟨fun _ => .inl h, fun _ => (hm.lt_of_exponent (hn.full (hm.least.trans_lt h)) h).le⟩
  · rw [scaled_le]
    exact ⟨fun hle => .inr ⟨rfl, hle⟩, fun hor => (hor.resolve_left (lt_irrefl _)).2⟩
  · refine ⟨fun hle => absurd (hn.lt_of_exponent (hm.full (hn.least.trans_lt h)) h) hle.not_gt, ?_⟩
    rintro (hlt | ⟨heq, -⟩)
    · exact absurd hlt h.asymm
    · exact absurd heq h.ne'

/-! ## Packed and unpacked doubles -/

theorem toNat_implicit (v : BitVec 52) : (1#1 ++ v).toNat = 2 ^ 52 + v.toNat := by
  rw [BitVec.toNat_append, ← Nat.shiftLeft_add_eq_or_of_lt v.isLt]
  rfl

/-- A double is unpacked into a canonical mantissa and exponent. -/
theorem unpack_canonical {x : Float} {s : Sign} {h : 0 < m} (hx : x.toModel.unpack = .finite s m e h) :
    Canonical m e ∧ e ≤ 971 := by
  unfold Float.Model.unpack UnpackedFloat.unpack at hx
  simp only at hx
  generalize (@unpackExponent Format.binary64 x.toModel.toBits.toBitVec : BitVec 11) = exponent at hx
  have hmantissa : (@unpackMantissa Format.binary64 x.toModel.toBits.toBitVec).toNat < 2 ^ 52 :=
    BitVec.isLt _
  split at hx
  · split at hx <;> cases hx
  · rename_i hones
    have hexponent : exponent.toNat < 2047 := by
      have hne : exponent.toNat ≠ 2047 := fun heq => hones (BitVec.eq_of_toNat_eq heq)
      have hlt : exponent.toNat < 2048 := exponent.isLt
      omega
    split at hx
    · split at hx
      · cases hx
      · rename_i hzero _
        cases hx
        rw [hzero]
        refine ⟨⟨h, by omega, ?_, ?_⟩, ?_⟩ <;> simp [Format.exponentBias]
    · rename_i hnonzero
      have hpos : 0 < exponent.toNat := Nat.pos_of_ne_zero fun heq => hnonzero (BitVec.eq_of_toNat_eq heq)
      cases hx
      rw [toNat_implicit]
      simp only [Format.exponentBias]
      refine ⟨⟨by omega, by omega, by omega, fun _ => by omega⟩, by omega⟩

section components

variable (s : Sign) {exponent : BitVec 11} {mantissa : BitVec 52}

theorem unpack_normal (hzero : exponent ≠ 0#11) (hones : exponent ≠ -1#11) :
    UnpackedFloat.unpack Format.binary64 (packComponents Format.binary64 s exponent mantissa) =
      .finite s (1#1 ++ mantissa).toNat (exponent.toNat - 1075) (by rw [toNat_implicit]; omega) := by
  unfold UnpackedFloat.unpack
  simp only [unpackExponent_packComponents, unpackMantissa_packComponents, unpackSign_packComponents,
    Sign.ofBitVec_toBitVec, if_neg hones, if_neg hzero]
  rfl

theorem unpack_subnormal (hmantissa : 0 < mantissa.toNat) :
    UnpackedFloat.unpack Format.binary64 (packComponents Format.binary64 s 0#11 mantissa) =
      .finite s mantissa.toNat (-1074) hmantissa := by
  have hzero : mantissa ≠ 0#52 := by
    rintro rfl
    exact absurd hmantissa (lt_irrefl 0)
  unfold UnpackedFloat.unpack
  simp only [unpackExponent_packComponents, unpackMantissa_packComponents, unpackSign_packComponents,
    Sign.ofBitVec_toBitVec, dif_neg hzero]
  rfl

end components

theorem finite_congr {s : Sign} {hm : 0 < m} {hn : 0 < n} (hmn : m = n) (hef : e = f) :
    UnpackedFloat.finite s m e hm = .finite s n f hn := by
  subst hmn hef
  rfl

/-- Packing keeps a canonical mantissa and exponent, or gives infinity if the exponent is too large. -/
theorem unpack_pack (s : Sign) (hm : Canonical m e) :
    (Float.Model.pack (.finite s m e hm.pos)).unpack =
      if e ≤ 971 then .finite s m e hm.pos else .infinity s := by
  obtain ⟨hpos, hlt, hleast, hfull⟩ := hm
  have hbias : (e + Format.binary64.exponentBias + Format.binary64.mantissaBitsWithoutImplicit : ℤ) =
      e + 1075 := by
    show e + 1023 + 52 = _
    omega
  have hover : 2 ^ Format.binary64.exponentBits ≤ (e + 1075).toNat + 1 ↔ ¬e ≤ 971 := by
    show 2048 ≤ _ ↔ _
    omega
  show UnpackedFloat.unpack Format.binary64 (UnpackedFloat.pack Format.binary64 (.finite s m e hpos)) = _
  unfold UnpackedFloat.pack
  simp only [hbias, hover]
  split_ifs with hfits hbits
  · -- a full mantissa has its leading bit in the exponent
    have hlog : m.log2 = 52 := Nat.succ.inj (hbits.trans (by decide))
    have hleading : 2 ^ 52 ≤ m := hlog ▸ Nat.log2_self_le hpos.ne'
    have hexponent : (BitVec.ofNat 11 (e + 1075).toNat).toNat = (e + 1075).toNat := by
      rw [BitVec.toNat_ofNat, Nat.mod_eq_of_lt (by omega)]
    refine (unpack_normal s ?_ ?_).trans (finite_congr ?_ ?_)
    · intro hzero
      have := congrArg BitVec.toNat hzero
      rw [hexponent, BitVec.toNat_zero] at this
      omega
    · intro hones
      have := congrArg BitVec.toNat hones
      rw [hexponent] at this
      have hmax : (-1#11 : BitVec 11).toNat = 2047 := rfl
      omega
    · rw [toNat_implicit, BitVec.toNat_ofNat]
      omega
    · rw [hexponent]
      omega
  · have hlog : m.log2 ≠ 52 := fun h => hbits (by rw [h]; rfl)
    have hless : m < 2 ^ 52 := by
      by_contra hge
      exact hlog ((Nat.log2_eq_iff hpos.ne').mpr ⟨not_lt.mp hge, hlt⟩)
    have hmantissa : (BitVec.ofNat 52 m).toNat = m := by
      rw [BitVec.toNat_ofNat, Nat.mod_eq_of_lt hless]
    have he : e = -1074 := by
      by_contra hne
      exact absurd (hfull (lt_of_le_of_ne hleast (Ne.symm hne))) (not_le.mpr hless)
    exact (unpack_subnormal s (hmantissa.symm ▸ hpos)).trans (finite_congr hmantissa he.symm)
  · cases s <;> rfl

/-! ## The numbers that doubles represent -/

/-- The double is the positive number `q`. -/
def Represents (x : Float) (q : ℚ) : Prop :=
  ∃ m e h, x.toModel.unpack = .finite .positive m e h ∧ q = scaled m e

variable {x y z : Float}

/-- A mantissa of at most 53 bits can be made canonical by moving its exponent down. -/
theorem exists_canonical (hpos : 0 < m) (hlt : m < 2 ^ 53) (hleast : -1074 ≤ e) :
    ∃ n f, Canonical n f ∧ f ≤ e ∧ scaled n f = scaled m e := by
  have hlow := Nat.log2_self_le hpos.ne'
  have hhigh := Nat.lt_log2_self (n := m)
  have hlog : m.log2 < 53 := (Nat.log2_lt hpos.ne').mpr hlt
  obtain ⟨k, hk⟩ : ∃ k : ℕ, k = min (52 - m.log2) (e + 1074).toNat := ⟨_, rfl⟩
  have hpower : 0 < 2 ^ k := by positivity
  refine ⟨m * 2 ^ k, e - k, ⟨Nat.mul_pos hpos hpower, ?_, by omega, fun hfull => ?_⟩, by omega, ?_⟩
  · calc m * 2 ^ k < 2 ^ (m.log2 + 1) * 2 ^ k := Nat.mul_lt_mul_of_pos_right hhigh hpower
      _ = 2 ^ (m.log2 + 1 + k) := (pow_add ..).symm
      _ ≤ 2 ^ 53 := Nat.pow_le_pow_right two_pos (by omega)
  · calc 2 ^ 52 = 2 ^ (m.log2 + k) := by rw [show m.log2 + k = 52 by omega]
      _ = 2 ^ m.log2 * 2 ^ k := pow_add ..
      _ ≤ m * 2 ^ k := Nat.mul_le_mul_right _ hlow
  · rw [scaled_shift, sub_add_cancel]

theorem exists_represents (hpos : 0 < m) (hlt : m < 2 ^ 53) (hleast : -1074 ≤ e) (hgreatest : e ≤ 971) :
    ∃ x, Represents x (scaled m e) := by
  obtain ⟨n, f, hcanonical, hle, hsame⟩ := exists_canonical hpos hlt hleast
  refine ⟨⟨Float.Model.pack (.finite .positive n f hcanonical.pos)⟩, n, f, hcanonical.pos, ?_, hsame.symm⟩
  show (Float.Model.pack _).unpack = _
  rw [unpack_pack _ hcanonical, if_pos (hle.trans hgreatest)]

theorem exists_represents_zpow (hleast : -1074 ≤ e) (hgreatest : e ≤ 971) : ∃ x, Represents x (2 ^ e) := by
  have hpower : scaled 1 e = 2 ^ e := by rw [scaled, Nat.cast_one, one_mul]
  rw [← hpower]
  exact exists_represents one_pos (by norm_num) hleast hgreatest

/-- Only the places of positive finite values are between two of them. -/
theorem finite_of_place {a : UnpackedFloat} {p : Place} {u v : ℤ ×ₗ ℤ} (hp : place a = some p)
    (hlow : toLex (1, u) ≤ p) (hhigh : p ≤ toLex (1, v)) : ∃ m e hm, a = .finite .positive m e hm := by
  rcases a with ⟨_ | _⟩ | _ | _ | ⟨_ | _, m, e, hm⟩
  case finite.positive => exact ⟨m, e, hm, rfl⟩
  case notANumber => cases hp
  all_goals
    cases hp
    simp [Prod.Lex.toLex_le_toLex] at hlow hhigh

namespace Represents

theorem pos (hx : Represents x q) : 0 < q := by
  obtain ⟨m, e, hm, -, rfl⟩ := hx
  exact scaled_pos hm e

theorem le_iff (hx : Represents x q) (hy : Represents y r) : x ≤ y ↔ q ≤ r := by
  obtain ⟨m, e, hm, hunpack, rfl⟩ := hx
  obtain ⟨n, f, hn, hunpack', rfl⟩ := hy
  have hplace : placeOf x = some (toLex (1, toLex (e, (m : ℤ)))) := by rw [placeOf, hunpack, place]
  have hplace' : placeOf y = some (toLex (1, toLex (f, (n : ℤ)))) := by rw [placeOf, hunpack', place]
  rw [le_iff_places hplace hplace', (unpack_canonical hunpack).1.le_iff (unpack_canonical hunpack').1,
    Prod.Lex.toLex_le_toLex, Prod.Lex.toLex_le_toLex, Nat.cast_le]
  exact ⟨fun h => (h.resolve_left (lt_irrefl _)).2, fun h => .inr ⟨rfl, h⟩⟩

theorem lt_iff (hx : Represents x q) (hy : Represents y r) : x < y ↔ q < r := by
  rw [OrderedScalar.lt_iff, hx.le_iff hy, hy.le_iff hx, lt_iff_le_not_ge]

theorem zero_lt (hx : Represents x q) : 0.0 < x := by
  obtain ⟨m, e, hm, hunpack, -⟩ := hx
  refine Double.lt_iff.mpr ⟨toLex (0, toLex (0, 0)), toLex (1, toLex (e, (m : ℤ))), rfl, ?_, ?_⟩
  · rw [placeOf, hunpack, place]
  · rw [Prod.Lex.toLex_lt_toLex]
    exact .inl one_pos

theorem not_neg (hx : Represents x q) : ¬x < 0.0 :=
  OrderedScalar.not_lt_of_le (OrderedScalar.le_of_lt hx.zero_lt)

theorem between (hx : Represents x q) (hz : Represents z r) (hxy : x ≤ y) (hyz : y ≤ z) :
    ∃ v, Represents y v ∧ q ≤ v ∧ v ≤ r := by
  obtain ⟨v, hy⟩ : ∃ v, Represents y v := by
    obtain ⟨m, e, hm, hunpack, rfl⟩ := hx
    obtain ⟨n, f, hn, hunpack', rfl⟩ := hz
    obtain ⟨_, p, hplace, hp, hlow⟩ := Double.le_iff.mp hxy
    obtain ⟨_, _, hp', hplace', hhigh⟩ := Double.le_iff.mp hyz
    rw [placeOf, hunpack] at hplace
    rw [placeOf, hunpack'] at hplace'
    cases hplace
    cases hplace'
    obtain rfl := Option.some.inj (hp.symm.trans hp')
    obtain ⟨k, g, hk, hfinite⟩ := finite_of_place hp hlow hhigh
    exact ⟨_, k, g, hk, hfinite, rfl⟩
  exact ⟨v, hy, (hx.le_iff hy).mp hxy, (hy.le_iff hz).mp hyz⟩

end Represents

end RateCurves.Double
