import Mathlib
import RateCurves.Interpolation.Surface
import RateCurves.Proofs.Failure.Outcome
import RateCurves.Proofs.Interpolation.Locate

/-!
# Bilinear surfaces

The formula of a cell goes along a line twice: on the lower and on the upper side of the cell to the
fraction of `x`, and then from one side to the other to the fraction of `y` (`Surface.cellValue_eq`). Where
two cells meet one of the fractions is zero in the one and one in the other, so both formulas are that of
the common side (`Surface.cellValue_right`, `Surface.cellValue_above`). Hence the value is the formula of
any cell that a point belongs to, its sides included, and the outermost cells are without end
(`Axis.reach`, `Surface.value_eq_cellValue`). The corners, the bounds, the continuity and the symmetry of
the surface are then those of one cell; `Surface.ofLists_bilinear` puts them together.
-/

namespace RateCurves

open Set Scalar AffineMap

/-! ## Intervals with their ends -/

namespace Axis

variable (axis : Axis ℝ) {i : Nat}

/-- The abscissae of interval `i`, its ends included; the first and the last one go on outwards. -/
def reach (i : Nat) : Set ℝ :=
  {x | (i = 0 ∨ axis.value i ≤ x) ∧ (i + 2 = axis.values.length ∨ x ≤ axis.value (i + 1))}

variable {axis}

theorem Icc_subset_reach : Icc (axis.value i) (axis.value (i + 1)) ⊆ axis.reach i :=
  fun _ hx => ⟨.inr hx.1, .inr hx.2⟩

theorem isClosed_reach : IsClosed (axis.reach i) := by
  have hleft : IsClosed {x | i = 0 ∨ axis.value i ≤ x} := isClosed_const.union isClosed_Ici
  have hright : IsClosed {x | i + 2 = axis.values.length ∨ x ≤ axis.value (i + 1)} :=
    isClosed_const.union isClosed_Iic
  exact hleft.inter hright

theorem mem_reach_locate (x : ℝ) : x ∈ axis.reach (axis.locate x) := by
  obtain ⟨-, hleft, hright⟩ := axis.locate_spec x
  exact ⟨hleft, hright.imp_right le_of_lt⟩

theorem locate_of_reach {x : ℝ} (hi : i + 1 < axis.values.length) (hx : x ∈ axis.reach i) :
    axis.locate x = i ∨ i + 2 < axis.values.length ∧ x = axis.value (i + 1) ∧ axis.locate x = i + 1 := by
  obtain ⟨hleft, hright⟩ := hx
  by_cases hlast : i + 2 = axis.values.length
  · exact .inl (locate_eq ⟨hi, hleft, .inl hlast⟩)
  rcases (hright.resolve_left hlast).eq_or_lt with rfl | hlt
  · have hnext : i + 2 < axis.values.length := by omega
    refine .inr ⟨hnext, rfl, ?_⟩
    exact locate_eq ⟨hnext, .inr le_rfl, .inr (axis.value_lt (Nat.lt_succ_self _) hnext)⟩
  · exact .inl (locate_eq ⟨hi, hleft, .inr hlt⟩)

theorem eq_end_of_locate {k : Nat} (hk : k < axis.values.length) :
    k = axis.locate (axis.value k) ∨ k = axis.locate (axis.value k) + 1 := by
  have htwo := axis.two_le
  rw [axis.locate_value hk]
  split_ifs with hlast
  · exact .inr (by omega)
  · exact .inl rfl

end Axis

namespace Surface

/-! ## Fractions -/

section fractions

variable {axis : Axis ℝ} {i : Nat}

theorem fraction_left (axis : Axis ℝ) (i : Nat) : fraction axis i (axis.value i) = 0 := by
  rw [fraction, sub_self, zero_div]

theorem fraction_right (hi : i + 1 < axis.values.length) : fraction axis i (axis.value (i + 1)) = 1 :=
  div_self (sub_pos.mpr (axis.value_lt (Nat.lt_succ_self i) hi)).ne'

theorem fraction_mem (hi : i + 1 < axis.values.length) {x : ℝ}
    (hx : x ∈ Icc (axis.value i) (axis.value (i + 1))) : fraction axis i x ∈ Icc 0 1 := by
  have hwidth := sub_pos.mpr (axis.value_lt (Nat.lt_succ_self i) hi)
  exact ⟨div_nonneg (sub_nonneg.mpr hx.1) hwidth.le, (div_le_one hwidth).mpr (sub_le_sub_right hx.2 _)⟩

end fractions

/-! ## Cells -/

variable {s : Surface ℝ} {i j k l : Nat} {x y : ℝ}

theorem cellValue_eq (s : Surface ℝ) (i j : Nat) (x y : ℝ) : s.cellValue i j x y =
    lineMap (lineMap (s.z i j) (s.z (i + 1) j) (fraction s.xs i x))
      (lineMap (s.z i (j + 1)) (s.z (i + 1) (j + 1)) (fraction s.xs i x)) (fraction s.ys j y) := by
  simp only [lineMap_apply_ring, cellValue, lit_one]
  ring

theorem cellValue_corner (hi : i + 1 < s.xs.values.length) (hj : j + 1 < s.ys.values.length)
    (hk : k = i ∨ k = i + 1) (hl : l = j ∨ l = j + 1) :
    s.cellValue i j (s.xs.value k) (s.ys.value l) = s.z k l := by
  rw [cellValue_eq]
  rcases hk with rfl | rfl <;> rcases hl with rfl | rfl <;>
    simp only [fraction_left, fraction_right, hi, hj, lineMap_apply_zero, lineMap_apply_one]

/-- In a cell the formula is in every convex set that the four corners are in. -/
theorem cellValue_between (hi : i + 1 < s.xs.values.length) (hj : j + 1 < s.ys.values.length)
    (hx : x ∈ Icc (s.xs.value i) (s.xs.value (i + 1))) (hy : y ∈ Icc (s.ys.value j) (s.ys.value (j + 1)))
    {corners : Set ℝ} (hconvex : Convex ℝ corners) (hz : s.z i j ∈ corners ∧ s.z (i + 1) j ∈ corners ∧
      s.z i (j + 1) ∈ corners ∧ s.z (i + 1) (j + 1) ∈ corners) : s.cellValue i j x y ∈ corners := by
  obtain ⟨h₀₀, h₁₀, h₀₁, h₁₁⟩ := hz
  have ht := fraction_mem hi hx
  rw [cellValue_eq]
  exact hconvex.lineMap_mem (hconvex.lineMap_mem h₀₀ h₁₀ ht) (hconvex.lineMap_mem h₀₁ h₁₁ ht) (fraction_mem hj hy)

theorem cellValue_continuous (s : Surface ℝ) (i j : Nat) : Continuous fun p : ℝ × ℝ => s.cellValue i j p.1 p.2 := by
  unfold cellValue fraction
  fun_prop

/-- Two cells side by side have the same formula where they meet. -/
theorem cellValue_right (hi : i + 2 < s.xs.values.length) (j : Nat) (y : ℝ) :
    s.cellValue i j (s.xs.value (i + 1)) y = s.cellValue (i + 1) j (s.xs.value (i + 1)) y := by
  have hone : fraction s.xs i (s.xs.value (i + 1)) = 1 := fraction_right (Nat.lt_of_succ_lt hi)
  simp only [cellValue_eq, hone, fraction_left, lineMap_apply_zero, lineMap_apply_one]

theorem cellValue_above (hj : j + 2 < s.ys.values.length) (i : Nat) (x : ℝ) :
    s.cellValue i j x (s.ys.value (j + 1)) = s.cellValue i (j + 1) x (s.ys.value (j + 1)) := by
  have hone : fraction s.ys j (s.ys.value (j + 1)) = 1 := fraction_right (Nat.lt_of_succ_lt hj)
  simp only [cellValue_eq, hone, fraction_left, lineMap_apply_zero, lineMap_apply_one]

/-! ## Surfaces -/

/-- The value is the formula of any cell that the point belongs to. -/
theorem value_eq_cellValue (hi : i + 1 < s.xs.values.length) (hj : j + 1 < s.ys.values.length)
    (hx : x ∈ s.xs.reach i) (hy : y ∈ s.ys.reach j) : s.value x y = s.cellValue i j x y := by
  have hcolumn (m : Nat) : s.cellValue (s.xs.locate x) m x y = s.cellValue i m x y := by
    rcases Axis.locate_of_reach hi hx with heq | ⟨hnext, rfl, heq⟩
    · rw [heq]
    · rw [heq, cellValue_right hnext]
  have hrow (m : Nat) : s.cellValue m (s.ys.locate y) x y = s.cellValue m j x y := by
    rcases Axis.locate_of_reach hj hy with heq | ⟨hnext, rfl, heq⟩
    · rw [heq]
    · rw [heq, cellValue_above hnext]
  rw [value, hcolumn, hrow]

theorem value_node (hk : k < s.xs.values.length) (hl : l < s.ys.values.length) :
    s.value (s.xs.value k) (s.ys.value l) = s.z k l :=
  cellValue_corner (s.xs.locate_spec _).bound (s.ys.locate_spec _).bound
    (Axis.eq_end_of_locate hk) (Axis.eq_end_of_locate hl)

/-- The cells, with those at the border continued, are closed and cover the plane, and the value is
continuous on each of them. -/
theorem value_continuous (s : Surface ℝ) : Continuous fun p : ℝ × ℝ => s.value p.1 p.2 := by
  let cell (c : Fin (s.xs.values.length - 1) × Fin (s.ys.values.length - 1)) : Set (ℝ × ℝ) :=
    s.xs.reach c.1 ×ˢ s.ys.reach c.2
  have hcover : ⋃ c, cell c = univ := by
    refine eq_univ_of_forall fun p => mem_iUnion.mpr ?_
    have hi := (s.xs.locate_spec p.1).bound
    have hj := (s.ys.locate_spec p.2).bound
    exact ⟨(⟨s.xs.locate p.1, by omega⟩, ⟨s.ys.locate p.2, by omega⟩),
      Axis.mem_reach_locate p.1, Axis.mem_reach_locate p.2⟩
  refine (locallyFinite_of_finite cell).continuous hcover
    (fun c => Axis.isClosed_reach.prod Axis.isClosed_reach) fun c => ?_
  refine (s.cellValue_continuous c.1 c.2).continuousOn.congr fun p hp => ?_
  exact value_eq_cellValue (by omega) (by omega) hp.1 hp.2

/-! ## Exchanged axes -/

/-- The second surface is the first one with its axes exchanged. -/
structure Transposed (s t : Surface ℝ) : Prop where
  xs : t.xs = s.ys
  ys : t.ys = s.xs
  z : ∀ i < s.xs.values.length, ∀ j < s.ys.values.length, t.z j i = s.z i j

theorem Transposed.value {t : Surface ℝ} (h : s.Transposed t) (x y : ℝ) : t.value y x = s.value x y := by
  have hi := (s.xs.locate_spec x).bound
  have hj := (s.ys.locate_spec y).bound
  rw [Surface.value, Surface.value, h.xs, h.ys, cellValue_eq, cellValue_eq, h.xs, h.ys]
  simp (disch := omega) only [h.z, lineMap_apply_ring]
  ring

/-! ## Grids -/

section grids

variable {α : Type} [Scalar α] {s : Surface α} {i j : Nat}

theorem ofLists_ok {xs ys : List α} {zs : Array α} (h : ofLists xs ys zs = .ok s) :
    s.xs.values = xs ∧ s.ys.values = ys ∧ s.zs = zs := by
  obtain ⟨xAxis, hxs, h⟩ := Outcome.bind_ok.mp h
  obtain ⟨yAxis, hys, h⟩ := Outcome.bind_ok.mp h
  split at h
  · cases h
    exact ⟨Axis.values_of_ofList hxs, Axis.values_of_ofList hys, rfl⟩
  · cases h

theorem position_lt (hi : i < s.xs.values.length) (hj : j < s.ys.values.length) :
    j * s.xs.values.length + i < s.zs.size := by
  rw [s.sizes]
  calc j * s.xs.values.length + i < (j + 1) * s.xs.values.length := by
        rw [Nat.succ_mul]
        exact Nat.add_lt_add_left hi _
    _ ≤ s.xs.values.length * s.ys.values.length := by
        rw [Nat.mul_comm]
        exact Nat.mul_le_mul_left _ hj

theorem zs_get (hi : i < s.xs.values.length) (hj : j < s.ys.values.length) :
    s.zs[j * s.xs.values.length + i]? = some (s.z i j) := by
  have hlt := position_lt hi hj
  rw [z, Array.getD_eq_getD_getElem?, Array.getElem?_eq_getElem hlt, Option.getD_some]

end grids

theorem ofLists_exists {xs ys : List ℝ} {zs : Array ℝ} (two : 2 ≤ xs.length ∧ 2 ≤ ys.length)
    (increasing : xs.Pairwise (· < ·) ∧ ys.Pairwise (· < ·)) (sizes : zs.size = xs.length * ys.length) :
    ∃ s, ofLists xs ys zs = .ok s ∧ s.xs.values = xs ∧ s.ys.values = ys ∧ s.zs = zs := by
  have made {values : List ℝ} (htwo : 2 ≤ values.length) (hincreasing : values.Pairwise (· < ·)) :
      ∃ axis, Axis.ofList values = .ok axis :=
    Axis.ofList_exists htwo (List.all_eq_true.mpr fun x _ => isFinite_real x) (disorder_of_pairwise hincreasing)
  obtain ⟨xAxis, hxs⟩ := made two.1 increasing.1
  obtain ⟨yAxis, hys⟩ := made two.2 increasing.2
  obtain rfl := Axis.values_of_ofList hxs
  obtain rfl := Axis.values_of_ofList hys
  refine ⟨⟨xAxis, yAxis, zs, sizes, false⟩, ?_, rfl, rfl, rfl⟩
  rw [ofLists, hxs, hys]
  exact dif_pos sizes

/-- The least of the four corners of a cell. -/
noncomputable def leastCorner (s : Surface ℝ) (i j : Nat) : ℝ :=
  Min.min (Min.min (s.z i j) (s.z (i + 1) j)) (Min.min (s.z i (j + 1)) (s.z (i + 1) (j + 1)))

/-- The greatest of the four corners of a cell. -/
noncomputable def greatestCorner (s : Surface ℝ) (i j : Nat) : ℝ :=
  Max.max (Max.max (s.z i j) (s.z (i + 1) j)) (Max.max (s.z i (j + 1)) (s.z (i + 1) (j + 1)))

theorem corners_between (s : Surface ℝ) (i j : Nat) : s.z i j ∈ Icc (s.leastCorner i j) (s.greatestCorner i j) ∧
    s.z (i + 1) j ∈ Icc (s.leastCorner i j) (s.greatestCorner i j) ∧
    s.z i (j + 1) ∈ Icc (s.leastCorner i j) (s.greatestCorner i j) ∧
    s.z (i + 1) (j + 1) ∈ Icc (s.leastCorner i j) (s.greatestCorner i j) := by
  simp only [leastCorner, greatestCorner, mem_Icc, min_le_iff, le_max_iff, le_refl, true_or, or_true, and_self]

/-- **Bilinear surfaces.** Every two increasing axes of at least two values each, with a value for each pair
of their positions, row by row along the first axis, make a surface. On the grid it has the values of the
grid. In every cell, its sides included, it is the formula of that cell and lies between the least and the
greatest corner. Where two cells meet, side by side or one above the other, their formulas agree, and the
surface is continuous on the whole plane. The values with rows and columns exchanged make a surface on the
exchanged axes, which has the same value at every exchanged point, outside the grid as well. -/
theorem ofLists_bilinear {xs ys : List ℝ} {zs : Array ℝ} (two : 2 ≤ xs.length ∧ 2 ≤ ys.length)
    (increasing : xs.Pairwise (· < ·) ∧ ys.Pairwise (· < ·)) (sizes : zs.size = xs.length * ys.length) :
    ∃ s, ofLists xs ys zs = .ok s ∧ s.xs.values = xs ∧ s.ys.values = ys ∧ s.zs = zs ∧
      (∀ i j x y, xs[i]? = some x → ys[j]? = some y → zs[j * xs.length + i]? = some (s.value x y)) ∧
      (∀ i j, i + 1 < xs.length → j + 1 < ys.length →
        ∀ x ∈ Icc (s.xs.value i) (s.xs.value (i + 1)), ∀ y ∈ Icc (s.ys.value j) (s.ys.value (j + 1)),
          s.value x y = s.cellValue i j x y ∧ s.value x y ∈ Icc (s.leastCorner i j) (s.greatestCorner i j)) ∧
      (∀ i j y, i + 2 < xs.length → j + 1 < ys.length →
        s.cellValue i j (s.xs.value (i + 1)) y = s.cellValue (i + 1) j (s.xs.value (i + 1)) y) ∧
      (∀ i j x, i + 1 < xs.length → j + 2 < ys.length →
        s.cellValue i j x (s.ys.value (j + 1)) = s.cellValue i (j + 1) x (s.ys.value (j + 1))) ∧
      Continuous (fun p : ℝ × ℝ => s.value p.1 p.2) ∧
      ∀ zs' : Array ℝ, zs'.size = zs.size →
        (∀ i < xs.length, ∀ j < ys.length, zs'[i * ys.length + j]? = zs[j * xs.length + i]?) →
        ∃ t, ofLists ys xs zs' = .ok t ∧ ∀ x y, t.value y x = s.value x y := by
  obtain ⟨s, made, rfl, rfl, rfl⟩ := ofLists_exists two increasing sizes
  refine ⟨s, made, rfl, rfl, rfl, ?_, ?_, fun i j y hi _ => cellValue_right hi j y,
    fun i j x _ hj => cellValue_above hj i x, s.value_continuous, ?_⟩
  · intro i j x y hx hy
    obtain ⟨hi, rfl⟩ := List.getElem?_eq_some_iff.mp hx
    obtain ⟨hj, rfl⟩ := List.getElem?_eq_some_iff.mp hy
    rw [zs_get hi hj, ← value_node hi hj, Axis.value, Axis.value, List.getD_eq_getElem _ _ hi,
      List.getD_eq_getElem _ _ hj]
  · intro i j hi hj x hx y hy
    have hcell := value_eq_cellValue hi hj (Axis.Icc_subset_reach hx) (Axis.Icc_subset_reach hy)
    refine ⟨hcell, ?_⟩
    rw [hcell]
    exact cellValue_between hi hj hx hy (convex_Icc _ _) (s.corners_between i j)
  · intro zs' hsize hexchanged
    have hsizes : zs'.size = s.ys.values.length * s.xs.values.length := by
      rw [hsize, sizes, Nat.mul_comm]
    obtain ⟨t, ht, hxs, hys, rfl⟩ := ofLists_exists ⟨two.2, two.1⟩ ⟨increasing.2, increasing.1⟩ hsizes
    refine ⟨t, ht, Transposed.value ⟨Axis.eq_of_values hxs, Axis.eq_of_values hys, fun i hi j hj => ?_⟩⟩
    have heq := hexchanged i hi j hj
    rw [zs_get hi hj, ← hxs, zs_get (hj.trans_eq (congrArg List.length hxs).symm)
      (hi.trans_eq (congrArg List.length hys).symm)] at heq
    exact Option.some.inj heq

/-- Three columns and two rows: the last corner has its value, the middle of the side between the two cells
is not outside the corners of the first cell, and the six values exchanged make the same surface. -/
theorem ofLists_bilinear_twoCells :
    ((2 ≤ [(0 : ℝ), 1, 2].length ∧ 2 ≤ [(0 : ℝ), 1].length) ∧
      ([(0 : ℝ), 1, 2].Pairwise (· < ·) ∧ [(0 : ℝ), 1].Pairwise (· < ·)) ∧
      #[(0 : ℝ), 1, 4, 10, 30, 12].size = [(0 : ℝ), 1, 2].length * [(0 : ℝ), 1].length) ∧
    ∃ s, ofLists [(0 : ℝ), 1, 2] [0, 1] #[0, 1, 4, 10, 30, 12] = .ok s ∧ s.value 2 1 = 12 ∧
      s.value 1 (1 / 2) ∈ Icc 0 30 ∧ Continuous (fun p : ℝ × ℝ => s.value p.1 p.2) ∧
      ∃ t, ofLists [(0 : ℝ), 1] [0, 1, 2] #[0, 10, 1, 30, 4, 12] = .ok t ∧ ∀ x y, t.value y x = s.value x y := by
  have two : 2 ≤ [(0 : ℝ), 1, 2].length ∧ 2 ≤ [(0 : ℝ), 1].length := by decide
  have increasing : [(0 : ℝ), 1, 2].Pairwise (· < ·) ∧ [(0 : ℝ), 1].Pairwise (· < ·) := by norm_num
  have sizes : #[(0 : ℝ), 1, 4, 10, 30, 12].size = [(0 : ℝ), 1, 2].length * [(0 : ℝ), 1].length := rfl
  obtain ⟨s, made, hxs, hys, hzs, exact, between, -, -, continuous, exchanged⟩ :=
    ofLists_bilinear two increasing sizes
  refine ⟨⟨two, increasing, sizes⟩, s, made, ?_, ?_, continuous, exchanged _ rfl ?_⟩
  · exact (Option.some.inj (exact 2 1 2 1 rfl rfl)).symm
  · have hleast : s.leastCorner 0 0 = 0 := by norm_num [leastCorner, z, hxs, hzs]
    have hgreatest : s.greatestCorner 0 0 = 30 := by norm_num [greatestCorner, z, hxs, hzs]
    rw [← hleast, ← hgreatest]
    refine (between 0 0 (by decide) (by decide) 1 ?_ (1 / 2) ?_).2
    · norm_num [Axis.value, hxs]
    · norm_num [Axis.value, hys]
  · intro i hi j hj
    change i < 3 at hi
    change j < 2 at hj
    interval_cases i <;> interval_cases j <;> rfl

end Surface

end RateCurves
