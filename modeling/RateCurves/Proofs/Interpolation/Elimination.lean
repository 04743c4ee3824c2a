import RateCurves.Proofs.Interpolation.Local

/-!
# The moments of a spline

The moments solve a tridiagonal system with zero at both ends (`moment_solves`). Elimination turns row
`j` into one with two unknowns (`Reduced`), whose pivot stays above the width of the interval ahead of it
(`width_lt_pivot`), so no step divides by zero. As the reduced rows determine the moments from the last
one backwards, the system has no other solution (`Solves.unique`).
-/

namespace RateCurves.Cubic

open Scalar

variable (nodes : Nodes ℝ)

theorem width_pos {i : Nat} (h : i + 1 < nodes.size) : 0 < nodes.width i :=
  sub_pos.mpr (nodes.axis.value_lt (Nat.lt_succ_self i) h)

/-! ## The system -/

/-- Equation `j` of the system for the second derivatives `m` at the nodes. -/
def Row (m : Nat → ℝ) (j : Nat) : Prop :=
  nodes.width j * m j + 2 * (nodes.width j + nodes.width (j + 1)) * m (j + 1) +
    nodes.width (j + 1) * m (j + 2) = 6 * (nodes.slope (j + 1) - nodes.slope j)

/-- The whole system: an equation for each inner node, and zero at both ends. -/
structure Solves (m : Nat → ℝ) : Prop where
  first : m 0 = 0
  last : m nodes.final = 0
  row : ∀ j, j + 2 < nodes.size → Row nodes m j

/-! ## Elimination -/

/-- What elimination leaves on the diagonal of row `j`. -/
noncomputable def pivot : Nat → ℝ
  | 0 => diagonal nodes 0
  | j + 1 => diagonal nodes (j + 1) - nodes.width (j + 1) / pivot j * nodes.width (j + 1)

/-- What elimination leaves on the right of row `j`. -/
noncomputable def right : Nat → ℝ
  | 0 => load nodes 0
  | j + 1 => load nodes (j + 1) - nodes.width (j + 1) / pivot nodes j * right j

theorem solveRows_succ (more j : Nat) :
    solveRows nodes (more + 1) j (pivot nodes j) (right nodes j) =
      (right nodes j - nodes.width (j + 1) *
          (solveRows nodes more (j + 1) (pivot nodes (j + 1)) (right nodes (j + 1))).headD 0) /
        pivot nodes j ::
      solveRows nodes more (j + 1) (pivot nodes (j + 1)) (right nodes (j + 1)) := by
  rw [solveRows, lit_zero]
  rfl

variable {nodes}

/-- The diagonal dominates: each pivot exceeds the entry to its right. -/
theorem width_lt_pivot {j : Nat} (h : j + 2 < nodes.size) : nodes.width (j + 1) < pivot nodes j := by
  induction j with
  | zero =>
    have hfirst := width_pos nodes (i := 0) (by omega)
    have hsecond := width_pos nodes (i := 1) (by omega)
    rw [pivot, diagonal, lit_two]
    linarith
  | succ j ih =>
    have hpivot := ih (by omega)
    have hwidth := width_pos nodes (i := j + 1) (by omega)
    have hnext := width_pos nodes (i := j + 2) (by omega)
    have hshrink : nodes.width (j + 1) / pivot nodes j * nodes.width (j + 1) < nodes.width (j + 1) := by
      rw [div_mul_eq_mul_div, div_lt_iff₀ (hwidth.trans hpivot)]
      exact mul_lt_mul_of_pos_left hpivot hwidth
    rw [pivot, diagonal, lit_two]
    linarith

theorem pivot_pos {j : Nat} (h : j + 2 < nodes.size) : 0 < pivot nodes j :=
  (width_pos nodes (by omega)).trans (width_lt_pivot h)

variable (nodes) in
/-- Equation `j` after elimination, with two unknowns. -/
def Reduced (m : Nat → ℝ) (j : Nat) : Prop :=
  pivot nodes j * m (j + 1) + nodes.width (j + 1) * m (j + 2) = right nodes j

variable {m : Nat → ℝ} {j : Nat}

theorem row_zero_iff (first : m 0 = 0) : Row nodes m 0 ↔ Reduced nodes m 0 := by
  unfold Row Reduced
  rw [pivot, right, diagonal, load, lit_two, lit_six, first, mul_zero, zero_add]

/-- Once a row has been reduced, the next one says the same before and after its reduction. -/
theorem row_succ_iff (hj : j + 2 < nodes.size) (h : Reduced nodes m j) :
    Row nodes m (j + 1) ↔ Reduced nodes m (j + 1) := by
  have hpivot : pivot nodes j ≠ 0 := (pivot_pos hj).ne'
  -- the multiple of the reduced row that is taken away
  have haway : nodes.width (j + 1) / pivot nodes j * right nodes j =
      nodes.width (j + 1) * m (j + 1) +
        nodes.width (j + 1) / pivot nodes j * nodes.width (j + 1) * m (j + 2) := by
    rw [← h]
    field_simp
  unfold Row Reduced
  rw [pivot, right, diagonal, load, lit_two, lit_six, haway]
  constructor <;> intro heq <;> linarith

theorem Solves.reduced (h : Solves nodes m) : ∀ j, j + 2 < nodes.size → Reduced nodes m j := by
  intro j hj
  induction j with
  | zero => exact (row_zero_iff h.first).mp (h.row 0 hj)
  | succ j ih =>
    have hj' : j + 2 < nodes.size := by omega
    exact (row_succ_iff hj' (ih hj')).mp (h.row (j + 1) hj)

theorem solves_of_reduced (first : m 0 = 0) (last : m nodes.final = 0)
    (h : ∀ j, j + 2 < nodes.size → Reduced nodes m j) : Solves nodes m where
  first := first
  last := last
  row j hj := by
    cases j with
    | zero => exact (row_zero_iff first).mpr (h 0 hj)
    | succ j => exact (row_succ_iff (by omega) (h j (by omega))).mpr (h (j + 1) hj)

theorem Solves.unique {m' : Nat → ℝ} (h : Solves nodes m) (h' : Solves nodes m') :
    ∀ i < nodes.size, m i = m' i := by
  have hsucc := nodes.final_succ
  -- from the last node backwards
  have back : ∀ k i, i + k = nodes.final → m i = m' i := by
    intro k
    induction k with
    | zero =>
      rintro i rfl
      exact h.last.trans h'.last.symm
    | succ k ih =>
      intro i hi
      cases i with
      | zero => exact h.first.trans h'.first.symm
      | succ j =>
        have hj : j + 2 < nodes.size := by omega
        have hnext : m (j + 2) = m' (j + 2) := ih (j + 2) (by omega)
        have heq : pivot nodes j * m (j + 1) = pivot nodes j * m' (j + 1) := by
          have hrow := h.reduced j hj
          have hrow' := h'.reduced j hj
          unfold Reduced at hrow hrow'
          rw [hnext] at hrow
          linarith
        exact mul_left_cancel₀ (pivot_pos hj).ne' heq
  intro i hi
  exact back (nodes.final - i) i (by omega)

/-! ## Substitution -/

theorem solveRows_length {α : Type} [Scalar α] (nodes : Nodes α) (more j : Nat) (p r : α) :
    (solveRows nodes more j p r).length = more + 1 := by
  induction more generalizing j p r with
  | zero => rfl
  | succ more ih => rw [solveRows, List.length_cons, ih]

theorem solveRows_getD (more j : Nat) {i : Nat} (hi : i ≤ more) :
    (solveRows nodes more j (pivot nodes j) (right nodes j)).getD i 0 =
      (right nodes (j + i) - nodes.width (j + i + 1) *
        (solveRows nodes more j (pivot nodes j) (right nodes j)).getD (i + 1) 0) / pivot nodes (j + i) := by
  induction more generalizing j i with
  | zero =>
    obtain rfl : i = 0 := by omega
    simp [solveRows]
  | succ more ih =>
    rw [solveRows_succ]
    cases i with
    | zero =>
      rw [List.getD_cons_succ, List.getD_cons_zero, List.headD_eq_getD]
      rfl
    | succ i =>
      rw [List.getD_cons_succ, List.getD_cons_succ, ih (j + 1) (by omega), Nat.add_right_comm j 1 i]
      rfl

/-! ## The moments -/

variable (nodes) in
/-- The moments are zero at the first node, and then the solved rows, followed by zero. -/
theorem moment_succ (h : 3 ≤ nodes.size) (i : Nat) :
    (Spline.ofNodes nodes).moment (i + 1) =
      (solveRows nodes (nodes.size - 3) 0 (pivot nodes 0) (right nodes 0)).getD i 0 := by
  have hmoments : (Spline.ofNodes nodes).moments =
      0.0 :: (solveRows nodes (nodes.size - 3) 0 (pivot nodes 0) (right nodes 0) ++ [0.0]) := by
    show moments nodes = _
    rw [moments, if_neg (by omega)]
    rfl
  rw [Spline.moment, hmoments, lit_zero, List.getD_cons_succ]
  rcases lt_or_ge i (solveRows nodes (nodes.size - 3) 0 (pivot nodes 0) (right nodes 0)).length with hi | hi
  · rw [List.getD_append _ _ _ _ hi]
  · rw [List.getD_append_right _ _ _ _ hi, List.getD_eq_default _ _ hi]
    cases i - (solveRows nodes (nodes.size - 3) 0 (pivot nodes 0) (right nodes 0)).length with
    | zero => rfl
    | succ k => rfl

/-- Each moment is found by dividing by the pivot of its row. -/
theorem moment_eq (h : j + 2 < nodes.size) :
    (Spline.ofNodes nodes).moment (j + 1) =
      (right nodes j - nodes.width (j + 1) * (Spline.ofNodes nodes).moment (j + 2)) / pivot nodes j := by
  have hthree : 3 ≤ nodes.size := by omega
  rw [moment_succ nodes hthree, moment_succ nodes hthree, solveRows_getD _ 0 (by omega), Nat.zero_add]

theorem moment_zero : (Spline.ofNodes nodes).moment 0 = 0 := by
  have htwo := nodes.two_le_size
  rcases htwo.eq_or_lt with hpair | hthree
  · exact Spline.moment_pair hpair.symm 0
  · have hmoments : (Spline.ofNodes nodes).moments = moments nodes := rfl
    rw [Spline.moment, hmoments, moments, if_neg (by omega), lit_zero]
    rfl

theorem moment_final : (Spline.ofNodes nodes).moment nodes.final = 0 := by
  have htwo := nodes.two_le_size
  rcases htwo.eq_or_lt with hpair | hthree
  · exact Spline.moment_pair hpair.symm _
  · have hsucc := nodes.final_succ
    rw [← nodes.final_pred, moment_succ nodes hthree, List.getD_eq_default]
    rw [solveRows_length]
    omega

theorem moment_solves : Solves nodes (Spline.ofNodes nodes).moment := by
  refine solves_of_reduced moment_zero moment_final fun j hj => ?_
  unfold Reduced
  rw [moment_eq hj, mul_div_cancel₀ _ (pivot_pos hj).ne', sub_add_cancel]

end RateCurves.Cubic
