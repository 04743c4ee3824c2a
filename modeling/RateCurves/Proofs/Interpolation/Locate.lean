import Mathlib.Data.List.GetD
import RateCurves.Proofs.Scalar.Order
import RateCurves.Interpolation.Scheme

/-!
# The interval search

The values of an axis increase strictly, and `locate` finds the interval an abscissa belongs to: its
left end is not above the abscissa unless it is the first interval, its right end is above unless it is
the last one (`Axis.locate_belongs`), and no other interval is like that (`Axis.locate_eq_of_belongs`).
At a node this is the interval it begins, or ends if it is the last node. All this holds of ordered
scalars; in exact arithmetic it holds of every abscissa (`Axis.locate_spec`, `Axis.locate_eq`).
-/

namespace RateCurves

open Scalar

/-! ## Prefixes -/

theorem getD_of_lt_takeWhile {α : Type} (p : α → Bool) (xs : List α) (d : α) :
    ∀ i < (xs.takeWhile p).length, p (xs.getD i d) = true := by
  induction xs with
  | nil => simp
  | cons x rest ih =>
    intro i hi
    rw [List.takeWhile_cons] at hi
    split_ifs at hi with hx
    · cases i with
      | zero => exact hx
      | succ i => exact ih i (by simpa using hi)
    · simp at hi

theorem getD_takeWhile_length {α : Type} (p : α → Bool) (xs : List α) (d : α)
    (h : (xs.takeWhile p).length < xs.length) : p (xs.getD (xs.takeWhile p).length d) = false := by
  induction xs with
  | nil => simp at h
  | cons x rest ih =>
    rw [List.takeWhile_cons] at h ⊢
    split_ifs at h ⊢ with hx
    · exact ih (by simpa using h)
    · simpa using hx

theorem Axis.eq_of_values {α : Type} [Scalar α] {a b : Axis α} (h : a.values = b.values) : a = b := by
  cases a
  cases b
  cases h
  rfl

theorem Axis.ofList_exists {α : Type} [Scalar α] {xs : List α} (htwo : 2 ≤ xs.length)
    (hfinite : xs.all isFinite = true) (hordered : disorder? xs = none) : ∃ axis, ofList xs = .ok axis := by
  unfold ofList
  rw [dif_pos htwo, dif_pos hfinite]
  split
  · exact ⟨_, rfl⟩
  · rename_i hdisorder
    rw [hordered] at hdisorder
    cases hdisorder

theorem Axis.value_dropLast {α : Type} [Scalar α] (axis : Axis α) {i : Nat}
    (h : i + 1 < axis.values.length) : axis.values.dropLast.getD i 0.0 = axis.value i := by
  have hi : i < axis.values.dropLast.length := by
    rw [List.length_dropLast]
    omega
  unfold value
  rw [List.getD_eq_getElem _ _ hi, List.getElem_dropLast, List.getD_eq_getElem _ _ (by omega)]

/-! ## The order of an axis -/

section ordered

variable {α : Type} [Scalar α] [OrderedScalar α]

theorem isChain_of_disorder {xs : List α} (hfinite : xs.all isFinite = true) (h : disorder? xs = none) :
    xs.IsChain (· < ·) := by
  fun_induction disorder? xs with
  | case1 => cases h
  | case2 a b rest hab ih =>
    simp only [List.all_cons, Bool.and_eq_true] at hfinite ih
    obtain ⟨ha, hb, hrest⟩ := hfinite
    have hlt : a < b :=
      OrderedScalar.lt_of_not_le (OrderedScalar.le_self_of_finite ha) (OrderedScalar.le_self_of_finite hb) hab
    exact .cons_cons hlt (ih ⟨hb, hrest⟩ (Option.map_eq_none_iff.mp h))
  | case3 xs hshort =>
    match xs with
    | [] => exact .nil
    | [a] => exact .singleton a
    | a :: b :: rest => exact absurd rfl (hshort a b rest)

theorem disorder_of_pairwise {xs : List α} (h : xs.Pairwise (· < ·)) : disorder? xs = none := by
  fun_induction disorder? xs with
  | case1 a b rest hba =>
    have hab : a < b := List.rel_of_pairwise_cons h List.mem_cons_self
    exact absurd hba (OrderedScalar.not_le_of_lt hab)
  | case2 a b rest hab ih => rw [ih h.of_cons, Option.map_none]
  | case3 xs hshort => rfl

namespace Axis

variable (axis : Axis α)

theorem value_le_self {i : Nat} (hi : i < axis.values.length) : axis.value i ≤ axis.value i := by
  apply OrderedScalar.le_self_of_finite
  unfold value
  rw [List.getD_eq_getElem _ _ hi]
  exact List.all_eq_true.mp axis.finite _ (List.getElem_mem hi)

theorem value_lt {i j : Nat} (hij : i < j) (hj : j < axis.values.length) : axis.value i < axis.value j := by
  have htrans : IsTrans α (· < ·) := ⟨fun _ _ _ => OrderedScalar.lt_trans⟩
  have hsorted := List.isChain_iff_pairwise.mp (isChain_of_disorder axis.finite axis.ordered)
  have hi : i < axis.values.length := hij.trans hj
  unfold value
  rw [List.getD_eq_getElem _ _ hi, List.getD_eq_getElem _ _ hj]
  exact List.pairwise_iff_getElem.mp hsorted i j hi hj hij

theorem value_le {i j : Nat} (hij : i ≤ j) (hj : j < axis.values.length) : axis.value i ≤ axis.value j := by
  rcases hij.eq_or_lt with rfl | hij
  · exact axis.value_le_self hj
  · exact OrderedScalar.le_of_lt (axis.value_lt hij hj)

/-! ## The interval of an abscissa -/

/-- The interval `i` is the one that `x` belongs to. -/
structure Belongs (i : Nat) (x : α) : Prop where
  bound : i + 2 ≤ axis.values.length
  left : i = 0 ∨ axis.value i ≤ x
  right : i + 2 = axis.values.length ∨ x < axis.value (i + 1)

theorem locate_belongs {x : α} (hx : x ≤ x) : axis.Belongs (axis.locate x) x := by
  have htwo := axis.two_le
  have hfirst : axis.values.headD 0.0 = axis.value 0 := by
    unfold value
    cases axis.values <;> rfl
  have hlast : axis.values.getLastD 0.0 = axis.value (axis.values.length - 1) := by
    unfold value
    rw [List.getLastD_eq_getLast?, List.getLast?_eq_getElem?, List.getD_eq_getElem?_getD]
  unfold locate RateCurves.locate
  rw [hfirst, hlast]
  split_ifs with hlow hhigh
  · exact ⟨htwo, .inl rfl, .inr (OrderedScalar.lt_trans hlow (axis.value_lt (by omega) (by omega)))⟩
  · refine ⟨by omega, .inr ?_, .inl (by omega)⟩
    exact OrderedScalar.le_of_lt (OrderedScalar.lt_trans (axis.value_lt (by omega) (by omega)) hhigh)
  · -- the initial segment of values not above `x`, the last value left out
    generalize hc : (axis.values.dropLast.takeWhile (· ≤ x)).length = c
    have hdrop : axis.values.dropLast.length = axis.values.length - 1 := List.length_dropLast
    have hle : c ≤ axis.values.length - 1 := by
      rw [← hc, ← hdrop]
      exact (List.takeWhile_sublist _).length_le
    have hin : ∀ i < c, axis.value i ≤ x := by
      intro i hi
      have := getD_of_lt_takeWhile (· ≤ x) axis.values.dropLast 0.0 i (by omega)
      rw [axis.value_dropLast (by omega)] at this
      exact of_decide_eq_true this
    have hout : c < axis.values.length - 1 → x < axis.value c := by
      intro hlt
      have := getD_takeWhile_length (· ≤ x) axis.values.dropLast 0.0 (by omega)
      rw [hc, axis.value_dropLast (by omega)] at this
      exact OrderedScalar.lt_of_not_le hx (axis.value_le_self (by omega)) (of_decide_eq_false this)
    rcases Nat.eq_zero_or_pos c with rfl | hpos
    · exact absurd (hout (by omega)) hlow
    · refine ⟨by omega, .inr (hin _ (by omega)), ?_⟩
      rcases hle.eq_or_lt with heq | hlt
      · exact .inl (by omega)
      · right
        rw [Nat.sub_add_cancel hpos]
        exact hout hlt

variable {axis}

theorem Belongs.not_lt {i j : Nat} {x : α} (hi : axis.Belongs i x) (hj : axis.Belongs j x) : ¬i < j := by
  intro hij
  have hlast := hj.bound
  have hx : x < axis.value (i + 1) := hi.right.resolve_left (by omega)
  have hle : axis.value j ≤ x := hj.left.resolve_left (by omega)
  have hnext : axis.value (i + 1) ≤ axis.value j := axis.value_le hij (by omega)
  exact OrderedScalar.not_le_of_lt hx (OrderedScalar.le_trans hnext hle)

theorem locate_eq_of_belongs {i : Nat} {x : α} (hx : x ≤ x) (h : axis.Belongs i x) : axis.locate x = i := by
  have hi := (axis.locate_belongs hx).not_lt h
  have hj := h.not_lt (axis.locate_belongs hx)
  omega

/-- At the last node the last interval, at any other one the interval it begins. -/
theorem locate_value {k : Nat} (h : k < axis.values.length) :
    axis.locate (axis.value k) = if k + 1 = axis.values.length then k - 1 else k := by
  have htwo := axis.two_le
  have hself := axis.value_le_self h
  apply locate_eq_of_belongs hself
  split_ifs with hlast
  · exact ⟨by omega, .inr (axis.value_le (by omega) h), .inl (by omega)⟩
  · exact ⟨by omega, .inr hself, .inr (axis.value_lt (by omega) (by omega))⟩

end Axis

end ordered

/-! ## Exact arithmetic -/

namespace Axis

variable {axis : Axis ℝ}

theorem locate_spec (axis : Axis ℝ) (x : ℝ) : axis.Belongs (axis.locate x) x :=
  axis.locate_belongs (le_refl x)

theorem locate_eq {i : Nat} {x : ℝ} (h : axis.Belongs i x) : axis.locate x = i :=
  locate_eq_of_belongs (le_refl x) h

end Axis

end RateCurves
