import RateCurves.Proofs.Interpolation.Bilinear
import RateCurves.Proofs.Interpolation.Elimination
import RateCurves.Proofs.Scalar.Double

/-!
# The interval search of doubles

Whatever is searched for, the answer is an interval: the guards at both ends answer with the first and the
last one, and the initial segment that is counted leaves the last value out (`Axis.locate_bound`). So both
ends of the interval that is found are positions of the axis, and of every list with as many entries, and
the four corners of a cell are positions of its grid. For what compares with itself the interval is the
first one below the first value, the last one from the last value on, and in between the only one that has
the abscissa (`Axis.locate_eq_iff`). `locate_finds` says both of doubles.
-/

namespace RateCurves

open Scalar

theorem getElem?_of_lt {α : Type} {xs : List α} {d : α} {k : Nat} (hk : k < xs.length) :
    xs[k]? = some (xs.getD k d) := by
  rw [List.getD_eq_getElem _ _ hk, List.getElem?_eq_getElem hk]

variable {α : Type} [Scalar α]

namespace Axis

variable (axis : Axis α) {i k : Nat} {x : α}

/-- What is found is an interval, also for a value that compares with nothing. -/
theorem locate_bound (x : α) : axis.locate x + 2 ≤ axis.values.length := by
  have htwo := axis.two_le
  have hcounted : (axis.values.dropLast.takeWhile (· ≤ x)).length ≤ axis.values.length - 1 := by
    rw [← List.length_dropLast]
    exact (List.takeWhile_sublist _).length_le
  unfold locate RateCurves.locate
  split_ifs
  all_goals omega

theorem values_get (hk : k < axis.values.length) : axis.values[k]? = some (axis.value k) := getElem?_of_lt hk

variable [OrderedScalar α] {axis}

theorem locate_first (hx : x ≤ x) (hlow : x < axis.value 0) : axis.locate x = 0 := by
  have htwo := axis.two_le
  exact locate_eq_of_belongs hx
    ⟨htwo, .inl rfl, .inr (OrderedScalar.lt_trans hlow (axis.value_lt Nat.zero_lt_one htwo))⟩

theorem locate_last (hx : x ≤ x) (hhigh : axis.value (axis.values.length - 1) ≤ x) :
    axis.locate x = axis.values.length - 2 := by
  have htwo := axis.two_le
  have hbefore : axis.value (axis.values.length - 2) ≤ axis.value (axis.values.length - 1) :=
    axis.value_le (by omega) (by omega)
  exact locate_eq_of_belongs hx ⟨by omega, .inr (OrderedScalar.le_trans hbefore hhigh), .inl (by omega)⟩

/-- From the first value on and below the last one, the interval that is found is the one that has the
abscissa. -/
theorem locate_eq_iff (hx : x ≤ x) (hlow : axis.value 0 ≤ x) (hhigh : x < axis.value (axis.values.length - 1))
    (hi : i + 1 < axis.values.length) : axis.locate x = i ↔ axis.value i ≤ x ∧ x < axis.value (i + 1) := by
  constructor
  · rintro rfl
    obtain ⟨-, hleft, hright⟩ := axis.locate_belongs hx
    constructor
    · rcases hleft with hfirst | hle
      · rwa [hfirst]
      · exact hle
    · rcases hright with hlast | hlt
      · have hend : axis.locate x + 1 = axis.values.length - 1 := by omega
        rwa [hend]
      · exact hlt
  · rintro ⟨hle, hlt⟩
    exact locate_eq_of_belongs hx ⟨hi, .inr hle, .inr hlt⟩

end Axis

theorem Nodes.ys_get (nodes : Nodes α) {k : Nat} (hk : k < nodes.size) : nodes.ys[k]? = some (nodes.y k) :=
  getElem?_of_lt (hk.trans_eq nodes.sizes.symm)

namespace Cubic

theorem moments_length (nodes : Nodes α) : (moments nodes).length = nodes.size := by
  have htwo := nodes.two_le_size
  unfold moments
  split_ifs with hsize
  · exact List.length_replicate
  · rw [List.length_append, List.length_cons, solveRows_length, List.length_singleton]
    omega

theorem moments_get (nodes : Nodes α) {k : Nat} (hk : k < nodes.size) :
    (moments nodes)[k]? = some ((Spline.ofNodes nodes).moment k) :=
  getElem?_of_lt (hk.trans_eq (moments_length nodes).symm)

end Cubic

/-- **The interval search finds the interval.** On an axis of at least two finite doubles in increasing order
the search answers with an interval, whatever double it is given, infinities and what is not a number
included. For a number this is the first interval below the first value, the last one from the last value on,
and in between the only one that has it. So what is read for a query is there: the abscissae, the ordinates
and the moments of nodes up to the right end of the interval, and the values of a grid up to the far corner
of the cell. -/
theorem locate_finds {xs : List Float} (two : 2 ≤ xs.length) (finite : ∀ v ∈ xs, isFinite v = true)
    (increasing : xs.Pairwise (· < ·)) :
    (∀ x, locate xs x ≤ xs.length - 2) ∧
    (∀ x, isNaN x = false →
      (x < xs[0] → locate xs x = 0) ∧
      (xs[xs.length - 1] ≤ x → locate xs x = xs.length - 2) ∧
      (xs[0] ≤ x → x < xs[xs.length - 1] →
        ∀ i (_ : i + 1 < xs.length), locate xs x = i ↔ xs[i] ≤ x ∧ x < xs[i + 1])) ∧
    (∀ ys nodes, Nodes.ofLists xs ys = .ok nodes → ∀ x, ∀ k ≤ nodes.locate x + 1,
      xs[k]? = some (nodes.x k) ∧ ys[k]? = some (nodes.y k) ∧
        (Cubic.moments nodes)[k]? = some ((Cubic.Spline.ofNodes nodes).moment k)) ∧
    ∀ ys zs s, Surface.ofLists xs ys zs = .ok s → ∀ x y, ∀ i ≤ s.xs.locate x + 1, ∀ j ≤ s.ys.locate y + 1,
      xs[i]? = some (s.xs.value i) ∧ ys[j]? = some (s.ys.value j) ∧
        zs[j * xs.length + i]? = some (s.z i j) := by
  obtain ⟨axis, made⟩ := Axis.ofList_exists two (List.all_eq_true.mpr finite) (disorder_of_pairwise increasing)
  obtain rfl := Axis.values_of_ofList made
  have hvalue (k : Nat) (hk : k < axis.values.length) : axis.values[k] = axis.value k :=
    (List.getD_eq_getElem _ _ hk).symm
  refine ⟨fun x => Nat.le_sub_of_add_le (axis.locate_bound x), fun x hnumber => ?_, ?_, ?_⟩
  · have hx := OrderedScalar.le_self_of_isNaN hnumber
    rw [hvalue 0 (by omega), hvalue (axis.values.length - 1) (by omega)]
    refine ⟨Axis.locate_first hx, Axis.locate_last hx, fun hlow hhigh i hi => ?_⟩
    rw [hvalue i (by omega), hvalue (i + 1) hi]
    exact Axis.locate_eq_iff hx hlow hhigh hi
  · intro ys nodes hnodes x k hk
    obtain ⟨hxs, rfl⟩ := Nodes.ofLists_ok hnodes
    have hk : k < nodes.size := hk.trans_lt (nodes.axis.locate_bound x)
    rw [← hxs]
    exact ⟨nodes.axis.values_get hk, nodes.ys_get hk, Cubic.moments_get nodes hk⟩
  · intro ys zs s hs x y i hi j hj
    obtain ⟨hxs, rfl, rfl⟩ := Surface.ofLists_ok hs
    have hi : i < s.xs.values.length := hi.trans_lt (s.xs.locate_bound x)
    have hj : j < s.ys.values.length := hj.trans_lt (s.ys.locate_bound y)
    rw [← hxs]
    exact ⟨s.xs.values_get hi, s.ys.values_get hj, Surface.zs_get hi hj⟩

/-- On `0`, `1`, `2`, `4` the interval of `3.9` is the last one, and so is that of `4` and of infinity, while
what is not a number has some interval. -/
theorem locate_finds_doublings :
    (2 ≤ [(0.0 : Float), 1.0, 2.0, 4.0].length ∧ (∀ v ∈ [(0.0 : Float), 1.0, 2.0, 4.0], isFinite v = true) ∧
      [(0.0 : Float), 1.0, 2.0, 4.0].Pairwise (· < ·)) ∧
    locate [(0.0 : Float), 1.0, 2.0, 4.0] 3.9 = 2 ∧ locate [(0.0 : Float), 1.0, 2.0, 4.0] 4.0 = 2 ∧
      locate [(0.0 : Float), 1.0, 2.0, 4.0] (1.0 / 0.0) = 2 ∧
      locate [(0.0 : Float), 1.0, 2.0, 4.0] (0.0 / 0.0) ≤ 2 := by
  have two : 2 ≤ [(0.0 : Float), 1.0, 2.0, 4.0].length := by decide
  have finite : ∀ v ∈ [(0.0 : Float), 1.0, 2.0, 4.0], isFinite v = true := by decide
  have increasing : [(0.0 : Float), 1.0, 2.0, 4.0].Pairwise (· < ·) := by decide
  obtain ⟨bound, found, -⟩ := locate_finds two finite increasing
  refine ⟨⟨two, finite, increasing⟩, ?_, ?_, ?_, bound _⟩
  · obtain ⟨-, -, inside⟩ := found 3.9 (by decide)
    have hlow : (0.0 : Float) ≤ 3.9 := by decide
    have hhigh : (3.9 : Float) < 4.0 := by decide
    have hinside : (2.0 : Float) ≤ 3.9 ∧ (3.9 : Float) < 4.0 := by decide
    exact (inside hlow hhigh 2 (by decide)).mpr hinside
  · have hself : (4.0 : Float) ≤ 4.0 := by decide
    exact (found 4.0 (by decide)).2.1 hself
  · have hpast : (4.0 : Float) ≤ 1.0 / 0.0 := by decide
    exact (found (1.0 / 0.0) (by decide)).2.1 hpast

end RateCurves
